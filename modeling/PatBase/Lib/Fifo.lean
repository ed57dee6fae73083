/-
# PatBase.Lib.Fifo -- the abstract FIFO queue behind a reader and a writer

The queue is a list.  `Read` takes as much as the caller's span holds from the
front and leaves the rest of the span alone; `Write` appends the whole span.  An
answer records what the caller can see: the count, the span after a read, and the
size and emptiness of the queue after the call.  `conservation` is the law the
name promises: everything delivered followed by what is still queued is the
initial content followed by everything written.
-/
import PatBase.Lib.Trace

namespace PatBase.Lib.Fifo

open PatBase.Lib.Trace

set_option autoImplicit false

universe u

variable {α : Type u}

inductive Call (α : Type u) where
  | read (dst : List α)
  | write (src : List α)
  deriving DecidableEq

inductive Result (α : Type u) where
  /-- The count, and the caller's span after the call. -/
  | read (count : Nat) (dst : List α)
  | write (count : Nat)
  deriving DecidableEq

structure Answer (α : Type u) where
  result : Result α
  size : Nat
  empty : Bool
  deriving DecidableEq

/-- The answer of a call that leaves `q` queued. -/
def answer (result : Result α) (q : List α) : Answer α × List α :=
  (⟨result, q.length, q.isEmpty⟩, q)

def step (q : List α) : Call α → Answer α × List α
  | .read dst =>
      let count := min q.length dst.length
      answer (.read count (q.take count ++ dst.drop count)) (q.drop count)
  | .write src => answer (.write src.length) (q ++ src)

def run (q : List α) (calls : List (Call α)) : List (Answer α) × List α :=
  specTrace step q calls

/-- What one answer hands to the caller. -/
def Answer.delivered (a : Answer α) : List α :=
  match a.result with
  | .read count dst => dst.take count
  | .write _ => []

/-- What one call asks to append. -/
def Call.written : Call α → List α
  | .read _ => []
  | .write src => src

theorem run_cons (q : List α) (c : Call α) (calls : List (Call α)) :
    run q (c :: calls) =
      ((step q c).1 :: (run (step q c).2 calls).1, (run (step q c).2 calls).2) := rfl

/-- One call: delivered, then still queued, is queued before, then written. -/
theorem step_conservation (q : List α) (c : Call α) :
    (step q c).1.delivered ++ (step q c).2 = q ++ c.written := by
  cases c with
  | read dst =>
      have short : min q.length dst.length ≤ (q.take (min q.length dst.length)).length := by
        simp
      simp only [step, answer, Answer.delivered, Call.written, List.append_nil,
        List.take_append_of_le_length short, List.take_take, Nat.min_self, List.take_append_drop]
  | write src => simp [step, answer, Answer.delivered, Call.written]

/-- **Nothing is lost, duplicated or reordered** over any sequence of calls. -/
theorem conservation (q : List α) (calls : List (Call α)) :
    (run q calls).1.flatMap Answer.delivered ++ (run q calls).2 =
      q ++ calls.flatMap Call.written := by
  induction calls generalizing q with
  | nil => simp [run, specTrace]
  | cons c calls ih =>
      simp only [run_cons, List.flatMap_cons, List.append_assoc, ih]
      rw [← List.append_assoc, step_conservation, List.append_assoc]

end PatBase.Lib.Fifo
