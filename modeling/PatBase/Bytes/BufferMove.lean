/-
# PatBase.Bytes.BufferMove -- moving a `Buffer`

The class leaves its move members to the compiler, so a move hands on `buf_` and
copies the view, `pos_` and the mode.  The moved-from string is empty, but `pos_` of
the moved-from buffer is what it was: a string that has been read from leaves a buffer
whose `pos_` lies past its end, whose `Size()` wraps and whose `Read` copies from
outside the string.

Runs here are over any number of buffers that are constructed, used, moved and
destroyed.  `moves_sound_iff`: every buffer of such a run is sound at every moment
exactly as long as no string is moved once it has been read from.
-/
import PatBase.Bytes.BufferStorage
import PatBase.Lib.Machine
import PatBase.Lib.Objects

namespace PatBase.Bytes.Buffer

open PatBase.Lib PatBase.Lib.Machine PatBase.Lib.Objects

set_option autoImplicit false

/-! ## Moves -/

/-- `Buffer(Buffer&&)` and `operator=(Buffer&&)`, as the target sees them. -/
def moveTarget (b : Buffer) (moved : b.buf.Moved) : Buffer :=
  { b with buf := moved.target }

/-- The moved-from buffer. -/
def moveSource (b : Buffer) (moved : b.buf.Moved) : Buffer :=
  { b with buf := moved.source }

/-- `pos_` has not passed the end of the active storage, `Size()` is what is left to
read, and whatever is called from here on answers as a queue of these bytes. -/
structure Sound (b : Buffer) : Prop where
  pos_le : b.pos ≤ b.active.length
  size_eq : b.size = b.unreadBytes.length
  fifo : ∀ (allocCounter : Option Nat) (calls : List Call),
    ObeysFifo ⟨b, allocCounter⟩ b.unreadBytes calls

theorem sound_iff {b : Buffer} : b.Sound ↔ b.pos ≤ b.active.length := by
  constructor
  · exact Sound.pos_le
  · intro pos_le
    have rep : Represents b b.unreadBytes := ⟨pos_le, rfl⟩
    exact ⟨pos_le, rep.size_eq, fun allocCounter => rep.obeysFifo⟩

theorem Represents.sound {b : Buffer} {q : List UInt8} (rep : Represents b q) : b.Sound :=
  sound_iff.mpr rep.pos_le

section Move

variable {b : Buffer} (moved : b.buf.Moved)

theorem moveTarget_active : (b.moveTarget moved).active = b.active := by
  simp [active, moveTarget, moved.target_bytes]

theorem moveTarget_unread : (b.moveTarget moved).unreadBytes = b.unreadBytes := by
  rw [unreadBytes, moveTarget_active]
  rfl

theorem moveTarget_sound (sound : b.Sound) : (b.moveTarget moved).Sound := by
  rw [sound_iff, moveTarget_active]
  exact sound.pos_le

/-- A moved-from buffer in string mode has nothing left, whatever its `pos_`. -/
theorem moveSource_sound_iff (sound : b.Sound) :
    (b.moveSource moved).Sound ↔ b.inView = true ∨ b.pos = 0 := by
  have viewOrString : (b.moveSource moved).active = if b.inView then b.bufView.1 else [] := by
    simp [active, moveSource, moved.source_empty]
  rw [sound_iff, viewOrString]
  show b.pos ≤ _ ↔ _
  have pos_le := sound.pos_le
  unfold active at pos_le
  cases mode : b.inView with
  | true =>
      simp only [mode, if_true] at pos_le
      simp [pos_le]
  | false => simp

end Move

/-! ## Runs over many buffers -/

structure Objects where
  live : Nat → Option Buffer
  allocCounter : Option Nat

inductive Act where
  | construct (id : Nat) (made : Construction)
  | call (id : Nat) (c : Call)
  /-- `Buffer(Buffer&&)` -/
  | moveConstruct (other this : Nat) (string : ∀ s : StdString, s.Moved)
  /-- `operator=(Buffer&&)` between distinct buffers. -/
  | moveAssign (other this : Nat) (string : ∀ s : StdString, s.Moved)
  | destroy (id : Nat)

def move (s : Objects) (other this : Nat) (b : Buffer) (string : ∀ s : StdString, s.Moved) :
    Objects :=
  { s with
    live := Function.update (Function.update s.live this (some (b.moveTarget (string b.buf))))
      other (some (b.moveSource (string b.buf))) }

def moveStep (s : Objects) : Act → Option Objects
  | .construct id made =>
      match s.live id with
      | none => some { s with live := Function.update s.live id (some made.build) }
      | some _ => none
  | .call id c =>
      match s.live id with
      | some b =>
          let w := after ⟨b, s.allocCounter⟩ c
          some ⟨Function.update s.live id (some w.buffer), w.allocCounter⟩
      | none => none
  | .moveConstruct other this string =>
      match s.live other, s.live this with
      | some b, none => some (move s other this b string)
      | _, _ => none
  | .moveAssign other this string =>
      match s.live other, s.live this with
      | some b, some _ => if other ≠ this then some (move s other this b string) else none
      | _, _ => none
  | .destroy id =>
      match s.live id with
      | some _ => some { s with live := Function.update s.live id none }
      | none => none

/-- Before anything is constructed. -/
def noObjects (allocCounter : Option Nat) : Objects := ⟨fun _ => none, allocCounter⟩

/-- What a move takes is in view mode or has not been read from. -/
def MovesUnread (s : Objects) (a : Act) : Prop :=
  ∀ other this string b, a = .moveConstruct other this string ∨ a = .moveAssign other this string →
    s.live other = some b → b.inView = true ∨ b.pos = 0

/-- The steps, the two moves as one. -/
inductive MoveStep (s : Objects) : Act → Objects → Prop where
  | construct (id : Nat) (made : Construction) (free : s.live id = none) :
      MoveStep s (.construct id made)
        { s with live := Function.update s.live id (some made.build) }
  | call (id : Nat) (c : Call) (b : Buffer) (has : s.live id = some b) :
      MoveStep s (.call id c)
        ⟨Function.update s.live id (some (after ⟨b, s.allocCounter⟩ c).buffer),
          (after ⟨b, s.allocCounter⟩ c).allocCounter⟩
  | move (a : Act) (other this : Nat) (string : ∀ s : StdString, s.Moved) (b : Buffer)
      (moves : a = .moveConstruct other this string ∨ a = .moveAssign other this string)
      (has : s.live other = some b) (apart : other ≠ this) :
      MoveStep s a (move s other this b string)
  | destroy (id : Nat) (b : Buffer) (has : s.live id = some b) :
      MoveStep s (.destroy id) { s with live := Function.update s.live id none }

theorem MoveStep.of_step {s s' : Objects} {a : Act} (taken : moveStep s a = some s') :
    MoveStep s a s' := by
  cases a with
  | construct id made =>
      simp only [moveStep] at taken
      split at taken
      · rename_i free
        cases taken
        exact .construct id made free
      · cases taken
  | call id c =>
      simp only [moveStep] at taken
      split at taken
      · rename_i b has
        cases taken
        exact .call id c b has
      · cases taken
  | moveConstruct other this string =>
      simp only [moveStep] at taken
      split at taken
      · rename_i b has free
        cases taken
        refine .move _ other this string b (.inl rfl) has fun same => ?_
        rw [same, free] at has
        cases has
      · cases taken
  | moveAssign other this string =>
      simp only [moveStep] at taken
      split at taken
      · rename_i b _ has _
        simp only [Option.ite_none_right_eq_some, Option.some.injEq] at taken
        obtain ⟨apart, rfl⟩ := taken
        exact .move _ other this string b (.inr rfl) has apart
      · cases taken
  | destroy id =>
      simp only [moveStep] at taken
      split at taken
      · rename_i b has
        cases taken
        exact .destroy id b has
      · cases taken

/-- Every live buffer is sound. -/
def AllSound (s : Objects) : Prop := All Sound s.live

section Step

variable {s s' : Objects} {a : Act}

/-- A move has one source, one target and one way to move the string. -/
theorem same_move {other this other' this' : Nat} {string string' : ∀ s : StdString, s.Moved}
    (moves : a = .moveConstruct other this string ∨ a = .moveAssign other this string)
    (moves' : a = .moveConstruct other' this' string' ∨ a = .moveAssign other' this' string') :
    other = other' ∧ this = this' ∧ string = string' := by
  rcases moves with rfl | rfl <;> rcases moves' with moves' | moves' <;> cases moves'
  · exact ⟨rfl, rfl, rfl⟩
  · exact ⟨rfl, rfl, rfl⟩

/-- A step keeps every buffer sound if what it moves has not been read from. -/
theorem moveStep_allSound (all : AllSound s) (unread : MovesUnread s a)
    (taken : moveStep s a = some s') : AllSound s' := by
  cases MoveStep.of_step taken with
  | construct id made free => exact all.update made.represents.sound
  | call id c b has =>
      have rep : Represents b b.unreadBytes := ⟨(all id b has).pos_le, rfl⟩
      obtain ⟨q, kept⟩ := after_represents (w := ⟨b, s.allocCounter⟩) rep c
      exact all.update kept.sound
  | move a other this string b moves has apart =>
      have sound := all other b has
      have left := unread other this string b moves has
      have handed := all.update (i := this) (moveTarget_sound (string b.buf) sound)
      exact handed.update ((moveSource_sound_iff (string b.buf) sound).mpr left)
  | destroy id b has => exact all.erase

/-- A step that leaves every buffer sound has moved nothing that was read from. -/
theorem movesUnread_of_sound (all : AllSound s) (taken : moveStep s a = some s')
    (sound : AllSound s') : MovesUnread s a := by
  intro other this string b moves has
  cases MoveStep.of_step taken with
  | construct id made free => rcases moves with moves | moves <;> cases moves
  | call id c b' has' => rcases moves with moves | moves <;> cases moves
  | destroy id b' has' => rcases moves with moves | moves <;> cases moves
  | move a other' this' string' b' moves' has' apart =>
      obtain ⟨rfl, rfl, rfl⟩ := same_move moves moves'
      obtain rfl := Option.some.inj (has.symm.trans has')
      have left : (b.moveSource (string b.buf)).Sound := sound other _ (Function.update_self ..)
      exact (moveSource_sound_iff (string b.buf) (all other b has)).mp left

/-- The target of a move has what its source had left to read. -/
def HandsOn (s : Objects) (a : Act) : Prop :=
  ∀ other this string s', a = .moveConstruct other this string ∨ a = .moveAssign other this string →
    moveStep s a = some s' →
    ∃ b b', s.live other = some b ∧ s'.live this = some b' ∧ b'.unreadBytes = b.unreadBytes

theorem handsOn (s : Objects) (a : Act) : HandsOn s a := by
  intro other this string s' moves taken
  cases MoveStep.of_step taken with
  | construct id made free => rcases moves with moves | moves <;> cases moves
  | call id c b has => rcases moves with moves | moves <;> cases moves
  | destroy id b has => rcases moves with moves | moves <;> cases moves
  | move a other' this' string' b moves' has apart =>
      obtain ⟨rfl, rfl, rfl⟩ := same_move moves moves'
      refine ⟨b, b.moveTarget (string b.buf), has, ?_, moveTarget_unread (string b.buf)⟩
      exact (Function.update_of_ne (Ne.symm apart) ..).trans (Function.update_self ..)

end Step

/-- **Moves are sound exactly when nothing partly read is moved.**  Every move hands on
what was left to read, and every buffer alive at any moment -- sources and targets of
moves among them -- is sound, if and only if each buffer was in view mode or unread when
it was moved from. -/
theorem moves_sound_iff {allocCounter : Option Nat} {acts : List Act} {s : Objects}
    (reached : run moveStep (noObjects allocCounter) acts = some s) :
    (Along moveStep HandsOn (noObjects allocCounter) acts ∧
        ∀ t, Visits moveStep (noObjects allocCounter) acts t → AllSound t) ↔
      Along moveStep MovesUnread (noObjects allocCounter) acts := by
  constructor
  · rintro ⟨-, sound⟩
    refine along_of_visited ?_ reached sound
    intro before t a t' _ all taken all'
    exact movesUnread_of_sound all taken all'
  · intro unread
    refine ⟨along_of_all handsOn, fun t visited => ?_⟩
    have preserved : ∀ s a s', AllSound s → MovesUnread s a → moveStep s a = some s' →
        AllSound s' := fun _ _ _ all unread taken => moveStep_allSound all unread taken
    exact unread.invariant_visited preserved all_none visited

theorem sso_fits : 15 ≤ maxSize := by decide

/-- Two characters are written to a buffer, moved, read by the target and moved back. -/
theorem moves_sound_iff_there_and_back :
    ∃ acts s, run moveStep (noObjects none) acts = some s ∧ acts.length = 5 ∧
      ((Along moveStep HandsOn (noObjects none) acts ∧
          ∀ t, Visits moveStep (noObjects none) acts t → AllSound t) ↔
        Along moveStep MovesUnread (noObjects none) acts) :=
  ⟨[.construct 0 (.default .exact), .call 0 (.write .exact ⟨[97, 98], by decide⟩),
      .moveConstruct 0 1 (StdString.handOver 15 sso_fits), .call 1 (.read ⟨[0], by decide⟩),
      .moveAssign 1 0 (StdString.handOver 15 sso_fits)],
    _, rfl, rfl, moves_sound_iff rfl⟩

/-- One of two characters is read, then the buffer is moved: the moved-from one claims to
hold nearly `2 ^ 64` bytes, and to read one of them leaves its string. -/
theorem partly_read_move :
    ∃ s b, run moveStep (noObjects none)
        [.construct 0 (.ofString .exact ⟨[97, 98], 15, by decide, by decide⟩),
          .call 0 (.read ⟨[0], by decide⟩),
          .moveConstruct 0 1 (StdString.handOver 15 sso_fits)] = some s ∧
      s.live 0 = some b ∧ b.pos = 1 ∧ b.active = [] ∧ b.size = 2 ^ 64 - 1 ∧
      call ⟨b, none⟩ (.read ⟨[0], by decide⟩) = .error .outOfRange ∧ ¬ AllSound s := by
  refine ⟨_, _, rfl, rfl, rfl, rfl, by decide, by rfl, fun all => ?_⟩
  have passed : 1 ≤ 0 := (all 0 _ rfl).pos_le
  exact absurd passed (by decide)

end PatBase.Bytes.Buffer
