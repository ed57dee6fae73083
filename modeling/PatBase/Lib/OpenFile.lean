/-
# PatBase.Lib.OpenFile -- a file and the positions of those who have it open

A file that any number of users have open, each with a position of its own, which its
reads and its writes move alike; a user that appends writes at the end, wherever its
position is.  `step` says which events a file allows: a read gives what stands at the
position, and `ended` is for a reader that has come to the end.  Of any run, whatever the
order of its events,

* `run_content`: if all who write append, the file is what it was, and what was written,
  in that order;
* `run_delivered`: then what a user reads, in the order of its reads, stands behind what it
  had passed, up to its next write; `run_since` is this for what it reads after a write,
  and `run_ended` for a user that is told of the end;
* `run_rewrites`: if the only writer does not append, the file is what this user read and
  wrote, in that order, and behind it what it was.
-/
import PatBase.Lib.Machine
import Mathlib.Data.List.Range
import Mathlib.Logic.Function.Basic

namespace PatBase.Lib

open PatBase.Lib.Machine

set_option autoImplicit false
set_option linter.unusedSectionVars false

universe u v

structure OpenFile (U : Type u) (β : Type v) where
  content : List β
  position : U → Nat

namespace OpenFile

inductive Event (U : Type u) (β : Type v) where
  | write (user : U) (bytes : List β)
  | read (user : U) (bytes : List β)
  /-- A read that finds nothing at its position. -/
  | ended (user : U)
  deriving DecidableEq, Repr

variable {U : Type u} {β : Type v} [DecidableEq U]

namespace Event

def user : Event U β → U
  | .write user _ => user
  | .read user _ => user
  | .ended user => user

def writes : Event U β → Bool
  | .write _ _ => true
  | _ => false

def written : Event U β → List β
  | .write _ bytes => bytes
  | _ => []

def delivered (u : U) : Event U β → List β
  | .read user bytes => if user = u then bytes else []
  | _ => []

/-- What the event moved the position of `u` over. -/
def passed (u : U) : Event U β → List β
  | .write user bytes => if user = u then bytes else []
  | .read user bytes => if user = u then bytes else []
  | .ended _ => []

theorem delivered_of_ne {u : U} {e : Event U β} (other : e.user ≠ u) : e.delivered u = [] := by
  cases e with
  | write user bytes => rfl
  | read user bytes => exact if_neg other
  | ended user => rfl

theorem passed_of_ne {u : U} {e : Event U β} (other : e.user ≠ u) : e.passed u = [] := by
  cases e with
  | write user bytes => exact if_neg other
  | read user bytes => exact if_neg other
  | ended user => rfl

end Event

/-! ## Steps -/

section Steps

variable [Inhabited β]

/-- The content with `bytes` at `position`; a hole before it is filled. -/
def overwrite (content : List β) (position : Nat) (bytes : List β) : List β :=
  content.take position ++ List.replicate (position - content.length) default ++ bytes ++
    content.drop (position + bytes.length)

theorem overwrite_end (content bytes : List β) :
    overwrite content content.length bytes = content ++ bytes := by
  have behind : content.drop (content.length + bytes.length) = [] :=
    List.drop_eq_nil_of_le (Nat.le_add_right _ _)
  rw [overwrite, List.take_length, Nat.sub_self, List.replicate_zero, List.append_nil, behind,
    List.append_nil]

theorem overwrite_append (front rest bytes : List β) :
    overwrite (front ++ rest) front.length bytes = front ++ bytes ++ rest.drop bytes.length := by
  have inside : front.length - (front ++ rest).length = 0 := by
    rw [List.length_append]
    omega
  rw [overwrite, List.take_left, inside, List.replicate_zero, List.append_nil,
    ← List.drop_drop, List.drop_left]

variable (appends : U → Bool)

/-- Where a write of `u` goes. -/
def target (file : OpenFile U β) (u : U) : Nat :=
  if appends u then file.content.length else file.position u

def step [DecidableEq β] (file : OpenFile U β) : Event U β → Option (OpenFile U β)
  | .write u bytes =>
      if bytes = [] then some file
      else
        some {
          content := overwrite file.content (file.target appends u) bytes
          position :=
            Function.update file.position u (file.target appends u + bytes.length) }
  | .read u bytes =>
      if (file.content.drop (file.position u)).take bytes.length = bytes then
        some { file with
          position := Function.update file.position u (file.position u + bytes.length) }
      else none
  | .ended u => if file.content.length ≤ file.position u then some file else none

end Steps

/-- All who write are among `P`. -/
def Writers (P : U → Prop) (events : List (Event U β)) : Prop :=
  ∀ e ∈ events, e.writes = true → P e.user

instance {P : U → Prop} [DecidablePred P] (events : List (Event U β)) :
    Decidable (Writers P events) :=
  inferInstanceAs (Decidable (∀ e ∈ events, e.writes = true → P e.user))

section Writers

variable {P : U → Prop} {before after : List (Event U β)}

theorem Writers.left (writers : Writers P (before ++ after)) : Writers P before :=
  fun e member => writers e (List.mem_append_left _ member)

theorem Writers.right (writers : Writers P (before ++ after)) : Writers P after :=
  fun e member => writers e (List.mem_append_right _ member)

theorem Writers.last {e : Event U β} (writers : Writers P (before ++ [e]))
    (write : e.writes = true) : P e.user :=
  writers e (List.mem_append_right _ (List.mem_singleton_self _)) write

end Writers

/-- A write of an appending user appends. -/
theorem target_append [Inhabited β] {appends : U → Bool} {u : U} (file : OpenFile U β)
    (append : appends u = true) : file.target appends u = file.content.length := if_pos append

section Run

variable [DecidableEq β] [Inhabited β] {appends : U → Bool} {file file' : OpenFile U β}
  {e : Event U β} {events : List (Event U β)} {u : U}

/-! ## Files that are appended to -/

theorem step_content (appending : e.writes = true → appends e.user = true)
    (taken : step appends file e = some file') :
    file'.content = file.content ++ e.written := by
  cases e with
  | write user bytes =>
      have append : appends user = true := appending rfl
      simp only [step, target_append file append, overwrite_end] at taken
      split at taken
      · rename_i nothing
        cases taken
        rw [Event.written, nothing, List.append_nil]
      · cases taken
        rfl
  | read user bytes =>
      simp only [step, Option.ite_none_right_eq_some, Option.some.injEq] at taken
      obtain ⟨-, rfl⟩ := taken
      exact (List.append_nil _).symm
  | ended user =>
      simp only [step, Option.ite_none_right_eq_some, Option.some.injEq] at taken
      obtain ⟨-, rfl⟩ := taken
      exact (List.append_nil _).symm

theorem run_content (appending : Writers (fun u => appends u = true) events)
    (reached : run (step appends) file events = some file') :
    file'.content = file.content ++ events.flatMap Event.written := by
  refine run_history (P := fun events file' => Writers (fun u => appends u = true) events →
    file'.content = file.content ++ events.flatMap Event.written)
    (fun _ => (List.append_nil _).symm) ?_ reached appending
  intro events middle e file' _ ih taken appending
  rw [step_content appending.last taken, ih appending.left, List.flatMap_append,
    List.flatMap_singleton, List.append_assoc]

/-- The position of `u` is inside the file, and behind `front`. -/
def Behind (u : U) (front : List β) (file : OpenFile U β) : Prop :=
  file.position u ≤ file.content.length ∧ file.content.take (file.position u) = front

theorem Behind.stands {front : List β} (behind : Behind u front file) : front <+: file.content :=
  behind.2 ▸ List.take_prefix _ _

/-- Bytes behind the position are appended. -/
theorem Behind.grows {front bytes : List β} (behind : Behind u front file)
    (position : file'.position u = file.position u)
    (content : file'.content = file.content ++ bytes) : Behind u front file' := by
  obtain ⟨within, prior⟩ := behind
  constructor
  · rw [position, content, List.length_append]
    omega
  · rw [position, content, List.take_append_of_le_length within, prior]

theorem step_behind {front : List β} (behind : Behind u front file)
    (appending : e.writes = true → appends e.user = true) (silent : e.writes = true → e.user ≠ u)
    (taken : step appends file e = some file') : Behind u (front ++ e.delivered u) file' := by
  have content := step_content appending taken
  cases e with
  | write user bytes =>
      have other : u ≠ user := (silent rfl).symm
      have position : file'.position u = file.position u := by
        simp only [step] at taken
        split at taken
        · cases taken
          rfl
        · cases taken
          exact Function.update_of_ne other ..
      have nothing : (Event.write user bytes).delivered u = [] := rfl
      rw [nothing, List.append_nil]
      exact behind.grows position content
  | read user bytes =>
      simp only [step, Option.ite_none_right_eq_some, Option.some.injEq] at taken
      obtain ⟨stands, rfl⟩ := taken
      obtain ⟨within, prior⟩ := behind
      by_cases same : user = u
      · subst same
        have room := congrArg List.length stands
        simp only [List.length_take, List.length_drop] at room
        refine ⟨?_, ?_⟩
        · simp only [Function.update_self]
          omega
        · simp only [Function.update_self, Event.delivered, if_true]
          rw [List.take_add, prior, stands]
      · simp only [Behind, Function.update_of_ne (Ne.symm same), Event.delivered, if_neg same,
          List.append_nil]
        exact ⟨within, prior⟩
  | ended user =>
      simp only [step, Option.ite_none_right_eq_some, Option.some.injEq] at taken
      obtain ⟨-, rfl⟩ := taken
      have nothing : (Event.ended user : Event U β).delivered u = [] := rfl
      rw [nothing, List.append_nil]
      exact behind

theorem run_delivered {front : List β} (behind : Behind u front file)
    (appending : Writers (fun u => appends u = true) events) (silent : Writers (· ≠ u) events)
    (reached : run (step appends) file events = some file') :
    Behind u (front ++ events.flatMap (Event.delivered u)) file' := by
  refine run_history (P := fun events file' =>
    Writers (fun u => appends u = true) events → Writers (· ≠ u) events →
      Behind u (front ++ events.flatMap (Event.delivered u)) file') ?_ ?_ reached appending silent
  · intro _ _
    rw [List.flatMap_nil, List.append_nil]
    exact behind
  · intro events middle e file' _ ih taken appending silent
    rw [List.flatMap_append, List.flatMap_singleton, ← List.append_assoc]
    exact step_behind (ih appending.left silent.left) appending.last silent.last taken

/-- A write brings its user to the end of the file. -/
theorem behind_of_write {bytes : List β} (append : appends u = true) (some_ : bytes ≠ [])
    (taken : step appends file (.write u bytes) = some file') :
    Behind u (file.content ++ bytes) file' := by
  simp only [step, if_neg some_, target_append file append, overwrite_end,
    Option.some.injEq] at taken
  subst taken
  rw [← List.length_append]
  simp only [Behind, Function.update_self, le_refl, List.take_length, and_self]

/-- **On from one's own write.**  What a user reads after a write of its own stands in the
file behind that write. -/
theorem run_since {bytes : List β} {before after : List (Event U β)} (some_ : bytes ≠ [])
    (appending : Writers (fun u => appends u = true) (before ++ .write u bytes :: after))
    (silent : Writers (· ≠ u) after)
    (reached : run (step appends) file (before ++ .write u bytes :: after) = some file') :
    file.content ++ before.flatMap Event.written ++ bytes ++
      after.flatMap (Event.delivered u) <+: file'.content := by
  obtain ⟨middle, first, rest⟩ := run_append_eq_some.mp reached
  obtain ⟨next, taken, last⟩ := run_cons_eq_some.mp rest
  have append : appends u = true := appending.right _ List.mem_cons_self rfl
  have later : Writers (fun u => appends u = true) after := fun e member =>
    appending.right e (List.mem_cons_of_mem _ member)
  have behind := behind_of_write append some_ taken
  rw [run_content appending.left first] at behind
  exact (run_delivered behind later silent last).stands

/-- **The end is the end.** -/
theorem run_ended {front : List β} {before after : List (Event U β)} (behind : Behind u front file)
    (appending : Writers (fun u => appends u = true) before) (silent : Writers (· ≠ u) before)
    (reached : run (step appends) file (before ++ .ended u :: after) = some file') :
    front ++ before.flatMap (Event.delivered u) =
      file.content ++ before.flatMap Event.written := by
  obtain ⟨middle, first, rest⟩ := run_append_eq_some.mp reached
  obtain ⟨_, taken, -⟩ := run_cons_eq_some.mp rest
  simp only [step, Option.ite_none_right_eq_some] at taken
  obtain ⟨-, prior⟩ := run_delivered behind appending silent first
  rw [← run_content appending first, ← prior]
  exact List.take_of_length_le taken.1

/-! ## A file with one writer, who does not append -/

/-- `u` has passed over `front`, and what stands behind it is what stood there. -/
def Rewrites (u : U) (start front : List β) (file : OpenFile U β) : Prop :=
  file.content = front ++ start.drop front.length ∧ file.position u = front.length

theorem step_rewrites {start front : List β} (rewrites : Rewrites u start front file)
    (sequential : appends u = false) (only : e.writes = true → e.user = u)
    (taken : step appends file e = some file') : Rewrites u start (front ++ e.passed u) file' := by
  obtain ⟨content, position⟩ := rewrites
  cases e with
  | write user bytes =>
      obtain rfl : user = u := only rfl
      have own : (Event.write user bytes).passed user = bytes := if_pos rfl
      rw [own]
      simp only [step] at taken
      split at taken
      · rename_i nothing
        cases taken
        rw [nothing, List.append_nil]
        exact ⟨content, position⟩
      · have here : file.target appends user = front.length := by
          rw [target, if_neg (by simp [sequential]), position]
        rw [here, content, overwrite_append] at taken
        cases taken
        refine ⟨?_, ?_⟩
        · rw [List.length_append, ← List.drop_drop]
        · rw [List.length_append]
          exact Function.update_self ..
  | read user bytes =>
      simp only [step, Option.ite_none_right_eq_some, Option.some.injEq] at taken
      obtain ⟨stands, rfl⟩ := taken
      by_cases same : user = u
      · subst same
        have own : (Event.read user bytes).passed user = bytes := if_pos rfl
        rw [position, content, List.drop_left] at stands
        have split : start.drop front.length = bytes ++ start.drop (front ++ bytes).length := by
          rw [List.length_append, ← List.drop_drop]
          nth_rewrite 1 [← stands]
          exact (List.take_append_drop _ _).symm
        rw [own]
        refine ⟨?_, ?_⟩
        · show file.content = _
          rw [content, split, List.append_assoc]
        · show Function.update _ _ _ _ = _
          rw [Function.update_self, position, List.length_append]
      · have other : (Event.read user bytes).passed u = [] := if_neg same
        rw [other, List.append_nil]
        exact ⟨content, (Function.update_of_ne (Ne.symm same) ..).trans position⟩
  | ended user =>
      simp only [step, Option.ite_none_right_eq_some, Option.some.injEq] at taken
      obtain ⟨-, rfl⟩ := taken
      rw [Event.passed, List.append_nil]
      exact ⟨content, position⟩

/-- **One writer, who does not append.** -/
theorem run_rewrites (start : file.position u = 0) (sequential : appends u = false)
    (only : Writers (· = u) events)
    (reached : run (step appends) file events = some file') :
    Rewrites u file.content (events.flatMap (Event.passed u)) file' := by
  refine run_history (P := fun events file' => Writers (· = u) events →
    Rewrites u file.content (events.flatMap (Event.passed u)) file')
    (fun _ => ⟨rfl, start⟩) ?_ reached only
  intro events middle e file' _ ih taken only
  rw [List.flatMap_append, List.flatMap_singleton]
  exact step_rewrites (ih only.left) sequential only.last taken

end Run

end OpenFile

end PatBase.Lib
