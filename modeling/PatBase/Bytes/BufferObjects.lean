/-
# PatBase.Bytes.BufferObjects -- buffers are values

The class leaves its copy members to the compiler too.  A copy has the string, the view,
`pos_` and the mode of its source; where the allocator refuses the string, the target is
as it was.  So the buffers of a program, constructed, called, moved, copied and
destroyed in any order, answer as the queues of `PatBase.Lib.Queues` do, each for
itself (`buffers_refine_queues`) -- as long as no string is moved that has been read
from, which `BufferMove` shows to be necessary.
-/
import PatBase.Bytes.BufferMove
import PatBase.Lib.Queues
import PatBase.Lib.Simulation

namespace PatBase.Bytes.Buffer

open PatBase.Lib PatBase.Lib.Machine PatBase.Lib.Objects PatBase.Lib.Effect

set_option autoImplicit false

/-! ## Copies -/

/-- What a copy of a string is, if the allocator grants it; its capacity is up to the
implementation. -/
abbrev CopyString := ∀ s : StdString, Option { copy : StdString // copy.bytes = s.bytes }

/-- `Buffer(Buffer const&)` and `operator=(Buffer const&)`, as the target sees them. -/
def copyTarget (b : Buffer) (copied : { copy : StdString // copy.bytes = b.buf.bytes }) : Buffer :=
  { b with buf := copied.1 }

inductive ObjectAct where
  | act (a : Act)
  /-- `Buffer(Buffer const&)` -/
  | copyConstruct (other this : Nat) (string : CopyString)
  /-- `operator=(Buffer const&)` -/
  | copyAssign (other this : Nat) (string : CopyString)

/-- The string is the first member to be copied, so a refusal changes nothing. -/
def copy (s : Objects) (this : Nat) (b : Buffer) (string : CopyString) : Objects :=
  match string b.buf with
  | some copied => { s with live := Function.update s.live this (some (b.copyTarget copied)) }
  | none => s

def objectStep (s : Objects) : ObjectAct → Option Objects
  | .act a => moveStep s a
  | .copyConstruct other this string =>
      match s.live other, s.live this with
      | some b, none => some (copy s this b string)
      | _, _ => none
  | .copyAssign other this string =>
      match s.live other, s.live this with
      | some b, some _ => some (copy s this b string)
      | _, _ => none

section Copy

variable {b : Buffer} (copied : { copy : StdString // copy.bytes = b.buf.bytes })

theorem copyTarget_active : (b.copyTarget copied).active = b.active := by
  simp [active, copyTarget, copied.2]

theorem copyTarget_unread : (b.copyTarget copied).unreadBytes = b.unreadBytes := by
  rw [unreadBytes, copyTarget_active]
  rfl

theorem copyTarget_sound (sound : b.Sound) : (b.copyTarget copied).Sound := by
  rw [sound_iff, copyTarget_active]
  exact sound.pos_le

end Copy

/-! ## The queues -/

/-- Moves take what is in view mode or unread. -/
def MovesSound (s : Objects) : ObjectAct → Prop
  | .act a => MovesUnread s a
  | _ => True

/-- What a use of the buffers is to the queues they stand for: a call that throws and a
copy that is refused are nothing. -/
def label (s : Objects) : ObjectAct → List (Queues.Label Nat UInt8)
  | .act (.construct id made) => [.construct id made.content]
  | .act (.call id c) =>
      match s.live id with
      | some b =>
          match perform c ⟨b, s.allocCounter⟩ with
          | .ok result _ => [.call id c.abstract result]
          | .error _ _ => []
      | none => []
  | .act (.moveConstruct other this _) => moved other this
  | .act (.moveAssign other this _) => moved other this
  | .act (.destroy id) => [.destroy id]
  | .copyConstruct other this string => copied other this string
  | .copyAssign other this string => copied other this string
where
  moved (other this : Nat) : List (Queues.Label Nat UInt8) :=
    match s.live other with
    | some b => [.move other this b.inView]
    | none => []
  copied (other this : Nat) (string : CopyString) : List (Queues.Label Nat UInt8) :=
    match s.live other with
    | some b => if (string b.buf).isSome then [.copy other this] else []
    | none => []

/-- Every buffer is sound, and stands for the queue of its unread bytes. -/
def StandsFor (s : Objects) (w : Queues.World Nat UInt8) : Prop :=
  AllSound s ∧ w = Queues.contents unreadBytes s.live

section Steps

variable {s s' : Objects}

theorem Construction.build_unread (made : Construction) :
    made.build.unreadBytes = made.content :=
  made.represents.unread

theorem construct_simulates {id : Nat} (made : Construction) (free : s.live id = none) :
    Queues.step (Queues.contents unreadBytes s.live) (.construct id made.content) =
      some (Queues.contents unreadBytes (Function.update s.live id (some made.build))) := by
  simp only [Queues.step, Queues.contents_of_none free, Queues.contents_update, made.build_unread]

/-- A call that completes answers as the queue, and leaves the rest of it. -/
theorem call_simulates {id : Nat} {c : Call} {b : Buffer} (sound : b.Sound)
    (has : s.live id = some b) :
    run Queues.step (Queues.contents unreadBytes s.live) (label s (.act (.call id c))) =
      some (Queues.contents unreadBytes
        (Function.update s.live id (some (after ⟨b, s.allocCounter⟩ c).buffer))) := by
  have rep : Represents b b.unreadBytes := ⟨sound.pos_le, rfl⟩
  cases performed : perform c ⟨b, s.allocCounter⟩ with
  | ok result w' =>
      obtain ⟨rfl, rep'⟩ := perform_refines (w := ⟨b, s.allocCounter⟩) rep performed
      have left : after ⟨b, s.allocCounter⟩ c = w' := by simp only [after, performed]
      have unread : w'.buffer.unreadBytes = (Fifo.step b.unreadBytes c.abstract).2 := rep'.unread
      simp only [label, has, performed, run, Queues.step, Queues.contents_of_some has, if_true,
        Option.bind_some, Queues.contents_update, left, unread]
  | error f w' =>
      have unread : w'.buffer.unreadBytes = b.unreadBytes := by
        cases c with
        | read dst =>
            obtain ⟨r, reads, -⟩ := read_spec (w := ⟨b, s.allocCounter⟩) rep dst
            have completed : perform (.read dst) ⟨b, s.allocCounter⟩ = .ok (.read _ _) r :=
              bind_eq_ok.mpr ⟨_, r, reads, rfl⟩
            cases completed.symm.trans performed
        | write st src =>
            have thrown : write st src ⟨b, s.allocCounter⟩ = .error f w' := by
              rcases bind_eq_error.mp performed with thrown | ⟨_, _, -, rest⟩
              · exact thrown
              · exact absurd rest pure_ne_error
            rw [(write_eq_error rep thrown).unchanged]
      have left : after ⟨b, s.allocCounter⟩ c = w' := by simp only [after, performed]
      simp only [label, has, performed, run, left, Queues.contents_update_same has unread]

/-- What a move leaves: a view is copied, a string is handed on. -/
theorem moveSource_unread {b : Buffer} (moved : b.buf.Moved) :
    (b.moveSource moved).unreadBytes = if b.inView then b.unreadBytes else [] := by
  cases mode : b.inView with
  | true => simp [unreadBytes, active, moveSource, mode]
  | false => simp [unreadBytes, active, moveSource, mode, moved.source_empty]

theorem move_simulates {other this : Nat} {b : Buffer} (string : ∀ s : StdString, s.Moved)
    (has : s.live other = some b) (apart : other ≠ this) :
    run Queues.step (Queues.contents unreadBytes s.live) (label.moved s other this) =
      some (Queues.contents unreadBytes (move s other this b string).live) := by
  simp only [label.moved, has, run, Queues.step, Queues.contents_of_some has, ne_eq, apart,
    not_false_eq_true, if_true, Option.bind_some, move, Queues.contents_update,
    moveTarget_unread, moveSource_unread]

theorem copy_simulates {other this : Nat} {b : Buffer} (string : CopyString)
    (has : s.live other = some b) :
    run Queues.step (Queues.contents unreadBytes s.live) (label.copied s other this string) =
      some (Queues.contents unreadBytes (copy s this b string).live) := by
  cases granted : string b.buf with
  | some copied =>
      simp only [label.copied, has, copy, granted, Option.isSome_some, if_true, run, Queues.step,
        Queues.contents_of_some has, Option.bind_some, Queues.contents_update, copyTarget_unread]
  | none =>
      simp only [label.copied, has, copy, granted, Option.isSome_none, Bool.false_eq_true, if_false,
        run]

theorem copy_allSound {this : Nat} {b : Buffer} (string : CopyString) (all : AllSound s)
    (sound : b.Sound) : AllSound (copy s this b string) := by
  unfold copy
  split
  · rename_i copied _
    exact all.update (copyTarget_sound copied sound)
  · exact all

/-- The copied buffer, and what the copy leaves. -/
theorem objectStep_copy {other this : Nat} {string : CopyString} {a : ObjectAct}
    (copies : a = .copyConstruct other this string ∨ a = .copyAssign other this string)
    (taken : objectStep s a = some s') :
    ∃ b, s.live other = some b ∧ s' = copy s this b string := by
  rcases copies with rfl | rfl
  · simp only [objectStep] at taken
    split at taken
    · rename_i b has _
      cases taken
      exact ⟨b, has, rfl⟩
    · cases taken
  · simp only [objectStep] at taken
    split at taken
    · rename_i b _ has _
      cases taken
      exact ⟨b, has, rfl⟩
    · cases taken

/-- Every step of the buffers is its steps of the queues. -/
theorem objectStep_simulates :
    Simulation objectStep Queues.step label MovesSound (fun _ _ => True) StandsFor := by
  rintro s _ a s' ⟨all, rfl⟩ moves taken
  have follows : AllSound s' ∧ run Queues.step (Queues.contents unreadBytes s.live) (label s a) =
      some (Queues.contents unreadBytes s'.live) := by
    cases a with
    | copyConstruct other this string =>
        obtain ⟨b, has, rfl⟩ := objectStep_copy (.inl rfl) taken
        exact ⟨copy_allSound string all (all other b has), copy_simulates string has⟩
    | copyAssign other this string =>
        obtain ⟨b, has, rfl⟩ := objectStep_copy (.inr rfl) taken
        exact ⟨copy_allSound string all (all other b has), copy_simulates string has⟩
    | act a =>
        refine ⟨moveStep_allSound all moves taken, ?_⟩
        cases MoveStep.of_step taken with
        | construct id made free =>
            simp only [label, run, construct_simulates made free, Option.bind_some]
        | call id c b has => exact call_simulates (all id b has) has
        | move a other this string b means has apart =>
            rcases means with rfl | rfl
            · exact move_simulates string has apart
            · exact move_simulates string has apart
        | destroy id b has =>
            simp only [label, run, Queues.step, Queues.contents_of_some has, Option.bind_some,
              Queues.contents_erase]
  obtain ⟨sound, moved⟩ := follows
  exact ⟨_, moved, along_of_all fun _ _ => trivial, sound, rfl⟩

end Steps

/-- **Buffers are values.**  Over any number of buffers that are constructed, called,
moved, copied and destroyed, every call that completes answers as the queue of that
buffer alone, a copy and its source go their own ways, and at the end each live buffer
has left to read what its queue holds -- if no string was moved that had been read. -/
theorem buffers_refine_queues {allocCounter : Option Nat} {uses : List ObjectAct} {s : Objects}
    (moves : Along objectStep MovesSound (noObjects allocCounter) uses)
    (reached : run objectStep (noObjects allocCounter) uses = some s) :
    ∃ w, run Queues.step (fun _ => none) (emits objectStep label (noObjects allocCounter) uses) =
        some w ∧ ∀ id, w id = (s.live id).map unreadBytes := by
  have start : StandsFor (noObjects allocCounter) (fun _ => none) := ⟨all_none, rfl⟩
  obtain ⟨w, moved, -, -, rfl⟩ := objectStep_simulates.run moves start reached
  exact ⟨_, moved, fun _ => rfl⟩

theorem one_fits : [(0 : UInt8)].length ≤ maxSize := by decide

theorem two_fit : [(1 : UInt8), 2].length ≤ maxSize := by decide

theorem own_bytes (s : StdString) : s.bytes = s.bytes := rfl

/-- A copy is written to, its source is read and then moved. -/
def copied : List ObjectAct :=
  [.act (.construct 0 (.ofView .exact ⟨[1, 2], two_fit⟩)),
    .copyConstruct 0 1 fun s => some ⟨s, own_bytes s⟩,
    .act (.call 1 (.write .exact ⟨[0], one_fits⟩)),
    .act (.call 0 (.read ⟨[0], one_fits⟩)),
    .act (.moveConstruct 0 2 (StdString.handOver 15 sso_fits))]

theorem buffers_refine_queues_copied :
    ∃ s w, run objectStep (noObjects none) copied = some s ∧
      run Queues.step (fun _ => none) (emits objectStep label (noObjects none) copied) = some w ∧
      w 1 = some [1, 2, 0] ∧ w 2 = some [2] := by
  have still : ∀ (s : Objects) (a : Act),
      (∀ other this string, a ≠ .moveConstruct other this string ∧
        a ≠ .moveAssign other this string) → MovesSound s (.act a) := by
    intro s a none_ other this string b moves
    rcases moves with moves | moves
    · exact absurd moves (none_ other this string).1
    · exact absurd moves (none_ other this string).2
  have moves : Along objectStep MovesSound (noObjects none) copied := by
    refine along_cons (still _ _ (by simp)) rfl (along_cons trivial rfl (along_cons
      (still _ _ (by simp)) rfl (along_cons (still _ _ (by simp)) rfl (along_cons ?_ rfl trivial))))
    intro other this string b moves has
    rcases moves with moves | moves
    · cases moves
      cases has
      exact .inl rfl
    · cases moves
  obtain ⟨s, reached⟩ : ∃ s, run objectStep (noObjects none) copied = some s :=
    Option.isSome_iff_exists.mp rfl
  have state := Option.some.inj reached
  obtain ⟨w, refined, holds⟩ := buffers_refine_queues moves reached
  refine ⟨s, w, reached, refined, ?_, ?_⟩
  · rw [holds, ← state]
    rfl
  · rw [holds, ← state]
    rfl

end PatBase.Bytes.Buffer
