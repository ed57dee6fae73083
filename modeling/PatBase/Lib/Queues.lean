/-
# PatBase.Lib.Queues -- a world of FIFO queues that are values

Any number of the queues of `PatBase.Lib.Fifo`, under names: they are constructed with a
content, called, moved, copied and destroyed.  What one of them is called does nothing
to another.  A label carries what the caller saw, and its step is enabled only where the
queue gives that answer, so a run of the world is a history of right answers.
-/
import PatBase.Lib.Fifo
import PatBase.Lib.Machine
import Mathlib.Logic.Function.Basic

namespace PatBase.Lib.Queues

set_option autoImplicit false

universe u v

variable {ι : Type u} {α : Type v}

/-- The content of the queues that are alive. -/
abbrev World (ι : Type u) (α : Type v) := ι → Option (List α)

inductive Label (ι : Type u) (α : Type v) where
  | construct (id : ι) (content : List α)
  | call (id : ι) (c : Fifo.Call α) (result : Fifo.Result α)
  /-- What is moved from is left empty, unless it keeps its content. -/
  | move (other this : ι) (keeps : Bool)
  | copy (other this : ι)
  | destroy (id : ι)

section Contents

universe w

variable {β : Type w} {live : ι → Option β} {content : β → List α} {id : ι} {x : β}

/-- The world that objects stand for. -/
def contents (content : β → List α) (live : ι → Option β) : World ι α :=
  fun id => (live id).map content

theorem contents_of_some (alive : live id = some x) :
    contents content live id = some (content x) := by
  rw [contents, alive]
  rfl

theorem contents_of_none (free : live id = none) : contents content live id = none := by
  rw [contents, free]
  rfl

end Contents

variable [DecidableEq ι]

def set (w : World ι α) (id : ι) (q : List α) : World ι α :=
  Function.update w id (some q)

def step [DecidableEq α] (w : World ι α) : Label ι α → Option (World ι α)
  | .construct id content =>
      match w id with
      | none => some (set w id content)
      | some _ => none
  | .call id c result =>
      match w id with
      | some q =>
          if (Fifo.step q c).1.result = result then some (set w id (Fifo.step q c).2) else none
      | none => none
  | .move other this keeps =>
      match w other with
      | some q =>
          if other ≠ this then some (set (set w this q) other (if keeps then q else []))
          else none
      | none => none
  | .copy other this =>
      match w other with
      | some q => some (set w this q)
      | none => none
  | .destroy id =>
      match w id with
      | some _ => some (Function.update w id none)
      | none => none

section Updates

universe w

variable {β : Type w} {live : ι → Option β} {content : β → List α} {id : ι} {x : β}

theorem contents_update : contents content (Function.update live id (some x)) =
    set (contents content live) id (content x) := by
  funext other
  by_cases same : other = id
  · simp [contents, set, same]
  · simp [contents, set, same]

/-- A change of an object that its content does not show. -/
theorem contents_update_same {y : β} (alive : live id = some y) (same : content x = content y) :
    contents content (Function.update live id (some x)) = contents content live := by
  rw [contents_update, same]
  exact Function.update_eq_self_iff.mpr (contents_of_some alive).symm

theorem contents_erase : contents content (Function.update live id none) =
    Function.update (contents content live) id none := by
  funext other
  by_cases same : other = id
  · simp [contents, same]
  · simp [contents, same]

end Updates

end PatBase.Lib.Queues
