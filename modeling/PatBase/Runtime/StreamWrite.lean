/-
# PatBase.Runtime.StreamWrite -- the bytes that consecutive stream Writes send

stream_write.h with the bytes, and the Closes of stream_close.h on the same handle
(`StreamHandle`).  A Write hands its message to `uv_write` and looks at no result; its
callback completes it with the status.

Libuv and the kernel are the environment.  A request that `uv_write` accepts joins the
write queue of the stream.  The kernel takes bytes of the first request only, any number
at a time; a request that is finished, that failed or that `uv_close` cancelled waits
for its callback.  The callbacks of a shutdown and of `uv_close` run when both queues
are empty.  `write_queue_size` counts the bytes still queued.

* `writes_leave_in_order`: what `Flow` says to a caller, in every run.
* `close_loses_nothing_iff`: the Closes that lose no accepted byte.
-/
import PatBase.Runtime.StreamHandle
import Mathlib.Data.List.Range

namespace PatBase.Runtime.StreamWrite

open PatBase.Lib.Machine

set_option autoImplicit false

/-! ## State -/

/-- A Write operation, and how much of its message the kernel has taken. -/
structure Write where
  msg : List UInt8
  taken : Nat
  completions : List Completion

namespace Write

def sent (w : Write) : List UInt8 := w.msg.take w.taken

def unsent (w : Write) : List UInt8 := w.msg.drop w.taken

theorem sent_append_unsent (w : Write) : w.sent ++ w.unsent = w.msg :=
  List.take_append_drop ..

theorem sent_of_unsent {w : Write} (whole : w.unsent = []) : w.sent = w.msg := by
  rw [← w.sent_append_unsent, whole, List.append_nil]

end Write

structure State where
  /-- The handle, and the Closes on it. -/
  stream : StreamHandle.State
  /-- `shutdown(2)` has succeeded. -/
  shut : Bool
  /-- `write_queue` -/
  queue : List Nat
  /-- `write_completed_queue`, each request with its error. -/
  done : List (Nat × Int)
  started : Nat
  /-- The Writes that `uv_write` accepted. -/
  accepted : List Nat
  writes : Nat → Write
  /-- What the kernel has taken. -/
  sent : List UInt8

inductive Act where
  /-- A Write is started with this message; `uv_write` returns `rc`. -/
  | startWrite (msg : List UInt8) (rc : Int)
  /-- The kernel takes `n` bytes of the first request. -/
  | transmit (n : Nat)
  /-- The first request fails, or is cancelled, with this status. -/
  | fail (status : Int)
  | writeCallback
  | startClose (op : Nat) (rc : Int)
  | shutdownCallback (status : Int)
  | closeCallback
  /-- `uv_shutdown` or a failed read: `uv_is_writable` is false from now on. -/
  | unwritable
  deriving DecidableEq, Repr

/-- The requests that have yet to call back. -/
def State.waiting (s : State) : List Nat := s.done.map Prod.fst ++ s.queue

/-- The bytes in both queues. -/
def State.size (s : State) : Nat :=
  (s.waiting.flatMap fun op => (s.writes op).unsent).length

/-- A connected stream that nothing was written to. -/
def init : State where
  stream := .ofHandle ⟨none, true, 0, .active, none, true⟩
  shut := false
  queue := []
  done := []
  started := 0
  accepted := []
  writes := fun _ => ⟨[], 0, []⟩
  sent := []

/-! ## Steps -/

/-- Libuv counts its queues. -/
def counted (s : State) : State :=
  { s with
    stream := { s.stream with handle := { s.stream.handle with writeQueueSize := s.size } } }

/-- The Write is constructed. -/
def connect (s : State) (msg : List UInt8) : State :=
  { s with
    started := s.started + 1
    writes := Function.update s.writes s.started ⟨msg, 0, []⟩ }

/-- `uv_write` accepts the request. -/
def accept (s : State) (op : Nat) : State :=
  { s with accepted := s.accepted ++ [op], queue := s.queue ++ [op] }

/-- `_stream_write::_op::start`, which drops the result of `uv_write`. -/
def startWrite (s : State) (msg : List UInt8) (rc : Int) : State :=
  if 0 ≤ rc then accept (connect s msg) s.started else connect s msg

/-- The kernel takes the next `n` bytes of a message. -/
def give (s : State) (op n : Nat) : State :=
  { s with
    sent := s.sent ++ (s.writes op).unsent.take n
    writes := Function.update s.writes op
      { s.writes op with taken := (s.writes op).taken + n } }

/-- `uv__write_req_finish` -/
def finish (s : State) (op : Nat) (rest : List Nat) (status : Int) : State :=
  { s with queue := rest, done := s.done ++ [(op, status)] }

def transmit (s : State) (op : Nat) (rest : List Nat) (n : Nat) : State :=
  let s := give s op n
  if (s.writes op).unsent = [] then finish s op rest 0 else s

/-- The callback of `uv_write`. -/
def writeCallback (s : State) (op : Nat) (status : Int) (rest : List (Nat × Int)) : State :=
  { s with
    done := rest
    writes := Function.update s.writes op
      { s.writes op with
        completions := (s.writes op).completions ++
          [Operation.streamWriteOp.callback ⟨status, 0, 0⟩] } }

def step (s : State) : Act → Option State
  | .startWrite msg rc =>
      if 0 ≤ rc →
          s.stream.handle.phase = .active ∧ s.stream.handle.writable = true ∧ s.shut = false then
        some (counted (startWrite s msg rc))
      else none
  | .transmit n =>
      match s.queue with
      | op :: rest =>
          if s.stream.handle.phase = .active ∧ n ≤ (s.writes op).unsent.length then
            some (counted (transmit s op rest n))
          else none
      | [] => none
  | .fail status =>
      match s.queue with
      | op :: rest => if status < 0 then some (counted (finish s op rest status)) else none
      | [] => none
  | .writeCallback =>
      match s.done with
      | (op, status) :: rest => some (counted (writeCallback s op status rest))
      | [] => none
  | .startClose op rc => some { s with stream := StreamHandle.startClose s.stream op rc }
  | .shutdownCallback status =>
      match s.stream.shutdown with
      | some op =>
          if s.waiting = [] ∧ (0 ≤ status → s.stream.handle.phase = .active) then
            some { s with
              stream := StreamHandle.shutdownCallback s.stream op status
              shut := s.shut || decide (0 ≤ status) }
          else none
      | none => none
  | .closeCallback =>
      match s.stream.handle.phase with
      | .closing op =>
          if s.waiting = [] ∧ s.stream.shutdown = none then
            some { s with stream := StreamHandle.closeCallback s.stream op }
          else none
      | _ => none
  | .unwritable =>
      some { s with
        stream := { s.stream with handle := { s.stream.handle with writable := false } } }

/-- What each action does, and what holds where it is enabled. -/
inductive Step (s : State) : Act → State → Prop where
  | startWrite (msg : List UInt8) (rc : Int)
      (accepts : 0 ≤ rc →
        s.stream.handle.phase = .active ∧ s.stream.handle.writable = true ∧ s.shut = false) :
      Step s (.startWrite msg rc) (counted (startWrite s msg rc))
  | transmit (op n : Nat) (rest : List Nat) (head : s.queue = op :: rest)
      (active : s.stream.handle.phase = .active) (fits : n ≤ (s.writes op).unsent.length) :
      Step s (.transmit n) (counted (transmit s op rest n))
  | fail (op : Nat) (rest : List Nat) (status : Int) (head : s.queue = op :: rest)
      (failed : status < 0) : Step s (.fail status) (counted (finish s op rest status))
  | writeCallback (op : Nat) (status : Int) (rest : List (Nat × Int))
      (head : s.done = (op, status) :: rest) :
      Step s .writeCallback (counted (writeCallback s op status rest))
  | startClose (op : Nat) (rc : Int) :
      Step s (.startClose op rc) { s with stream := StreamHandle.startClose s.stream op rc }
  | shutdownCallback (op : Nat) (status : Int) (asked : s.stream.shutdown = some op)
      (drained : s.waiting = []) (succeeds : 0 ≤ status → s.stream.handle.phase = .active) :
      Step s (.shutdownCallback status) { s with
        stream := StreamHandle.shutdownCallback s.stream op status
        shut := s.shut || decide (0 ≤ status) }
  | closeCallback (op : Nat) (closing : s.stream.handle.phase = .closing op)
      (drained : s.waiting = []) (answered : s.stream.shutdown = none) :
      Step s .closeCallback { s with stream := StreamHandle.closeCallback s.stream op }
  | unwritable :
      Step s .unwritable { s with
        stream := { s.stream with handle := { s.stream.handle with writable := false } } }

theorem Step.of_step {s s' : State} {a : Act} (taken : step s a = some s') : Step s a s' := by
  cases a with
  | startWrite msg rc =>
      simp only [step, Option.ite_none_right_eq_some, Option.some.injEq] at taken
      obtain ⟨accepts, rfl⟩ := taken
      exact .startWrite msg rc accepts
  | transmit n =>
      simp only [step] at taken
      split at taken
      · rename_i op rest head
        simp only [Option.ite_none_right_eq_some, Option.some.injEq] at taken
        obtain ⟨⟨active, fits⟩, rfl⟩ := taken
        exact .transmit op n rest head active fits
      · cases taken
  | fail status =>
      simp only [step] at taken
      split at taken
      · rename_i op rest head
        simp only [Option.ite_none_right_eq_some, Option.some.injEq] at taken
        obtain ⟨failed, rfl⟩ := taken
        exact .fail op rest status head failed
      · cases taken
  | writeCallback =>
      simp only [step] at taken
      split at taken
      · rename_i op status rest head
        cases taken
        exact .writeCallback op status rest head
      · cases taken
  | startClose op rc =>
      cases taken
      exact .startClose op rc
  | shutdownCallback status =>
      simp only [step] at taken
      split at taken
      · rename_i op asked
        simp only [Option.ite_none_right_eq_some, Option.some.injEq] at taken
        obtain ⟨⟨drained, succeeds⟩, rfl⟩ := taken
        exact .shutdownCallback op status asked drained succeeds
      · cases taken
  | closeCallback =>
      simp only [step] at taken
      split at taken
      · rename_i op closing
        simp only [Option.ite_none_right_eq_some, Option.some.injEq] at taken
        obtain ⟨⟨drained, answered⟩, rfl⟩ := taken
        exact .closeCallback op closing drained answered
      · cases taken
  | unwritable =>
      cases taken
      exact .unwritable

/-! ## The invariant -/

/-- The kernel has taken a prefix of every accepted message, in the order the Writes
were started, and of a message behind the first queued one nothing. -/
structure Flow (s : State) : Prop where
  order : s.accepted.Sublist (List.range s.started)
  waiting : ∃ called, s.accepted = called ++ s.waiting
  pending : ∀ op ∈ s.waiting, (s.writes op).completions = []
  behind : ∀ op ∈ s.queue.tail, (s.writes op).taken = 0
  finished : ∀ op status, (op, status) ∈ s.done → 0 ≤ status → (s.writes op).unsent = []
  once : ∀ op, (s.writes op).completions.length ≤ 1
  value : ∀ op v, .setValue v ∈ (s.writes op).completions →
    op ∈ s.accepted ∧ (s.writes op).unsent = []
  sent : s.sent = s.accepted.flatMap fun op => (s.writes op).sent
  shut : s.shut = true → s.queue = []

section Steps

variable {s s' : State} {a : Act} {op n : Nat} {rest : List Nat} {msg : List UInt8}
  {rc status : Int}

theorem Flow.started (flow : Flow s) {op : Nat} (member : op ∈ s.accepted) : op < s.started :=
  List.mem_range.mp (flow.order.subset member)

theorem Flow.nodup (flow : Flow s) : s.accepted.Nodup :=
  flow.order.nodup List.nodup_range

theorem Flow.accepted (flow : Flow s) {op : Nat} (member : op ∈ s.waiting) : op ∈ s.accepted := by
  obtain ⟨called, split⟩ := flow.waiting
  rw [split]
  exact List.mem_append_right _ member

/-- Nothing but the handle. -/
theorem Flow.withStream (flow : Flow s) (stream : StreamHandle.State) :
    Flow { s with stream := stream } :=
  ⟨flow.order, flow.waiting, flow.pending, flow.behind, flow.finished, flow.once, flow.value,
    flow.sent, flow.shut⟩

/-- A flatMap sees only the Writes it runs over. -/
theorem sent_update {writes : Nat → Write} {ops : List Nat} {w : Write} (outside : op ∉ ops) :
    (ops.flatMap fun other => (Function.update writes op w other).sent) =
      ops.flatMap fun other => (writes other).sent := by
  apply List.flatMap_congr
  intro other member
  rw [Function.update_of_ne (ne_of_mem_of_not_mem member outside)]

theorem connect_flow (flow : Flow s) : Flow (connect s msg) := by
  have outside : s.started ∉ s.accepted := fun member => Nat.lt_irrefl _ (flow.started member)
  have kept : ∀ op ∈ s.accepted, (connect s msg).writes op = s.writes op := by
    intro op member
    exact Function.update_of_ne (ne_of_mem_of_not_mem member outside) ..
  refine ⟨?order, flow.waiting, ?pending, ?behind, ?finished, ?once, ?value, ?sent, flow.shut⟩
  case order =>
    show s.accepted.Sublist (List.range (s.started + 1))
    rw [List.range_succ]
    exact flow.order.trans (List.sublist_append_left ..)
  case pending =>
    intro op member
    rw [kept op (flow.accepted member)]
    exact flow.pending op member
  case behind =>
    intro op member
    have queued : op ∈ s.waiting := List.mem_append_right _ (List.mem_of_mem_tail member)
    rw [kept op (flow.accepted queued)]
    exact flow.behind op member
  case finished =>
    intro op status member ok
    have waits : op ∈ s.waiting := List.mem_append_left _ (List.mem_map_of_mem member)
    rw [kept op (flow.accepted waits)]
    exact flow.finished op status member ok
  case once =>
    intro op
    by_cases new : op = s.started
    · simp [connect, new]
    · simpa [connect, new] using flow.once op
  case value =>
    intro op v member
    by_cases new : op = s.started
    · simp [connect, new] at member
    · simp only [connect, Function.update_of_ne new] at member ⊢
      exact flow.value op v member
  case sent => exact flow.sent.trans (sent_update outside).symm

/-- An accepted request of which nothing was taken goes behind the others. -/
theorem accept_flow (flow : Flow s) (opened : s.shut = false)
    (order : (s.accepted ++ [op]).Sublist (List.range s.started))
    (fresh : s.writes op = ⟨msg, 0, []⟩) : Flow (accept s op) := by
  refine ⟨order, ?waiting, ?pending, ?behind, flow.finished, flow.once, ?value, ?sent, ?shut⟩
  case waiting =>
    obtain ⟨called, split⟩ := flow.waiting
    refine ⟨called, ?_⟩
    simp [accept, State.waiting, split]
  case pending =>
    intro other member
    have among : other ∈ s.waiting ∨ other = op := by
      simpa [accept, State.waiting, or_assoc] using member
    rcases among with old | rfl
    · exact flow.pending other old
    · simp [accept, fresh]
  case behind =>
    intro other member
    have among : other ∈ s.queue.tail ∨ other = op := by
      cases queue : s.queue with
      | nil => simp [accept, queue] at member
      | cons first rest => simpa [accept, queue] using member
    rcases among with old | rfl
    · exact flow.behind other old
    · simp [accept, fresh]
  case value =>
    intro other v member
    obtain ⟨old, whole⟩ := flow.value other v member
    exact ⟨List.mem_append_left _ old, whole⟩
  case sent =>
    show s.sent = (s.accepted ++ [op]).flatMap fun op => (s.writes op).sent
    rw [List.flatMap_append, ← flow.sent]
    simp [Write.sent, fresh]
  case shut =>
    intro shut
    cases opened.symm.trans shut

theorem startWrite_flow (flow : Flow s) (opened : 0 ≤ rc → s.shut = false) :
    Flow (startWrite s msg rc) := by
  unfold startWrite
  split
  · rename_i accepted
    refine accept_flow (connect_flow flow) (opened accepted) ?_ (Function.update_self ..)
    show (s.accepted ++ [s.started]).Sublist (List.range (s.started + 1))
    rw [List.range_succ]
    exact flow.order.append (List.Sublist.refl _)
  · exact connect_flow flow

theorem give_flow (flow : Flow s) (head : s.queue = op :: rest) : Flow (give s op n) := by
  have queued : op ∈ s.waiting := List.mem_append_right _ (by simp [head])
  obtain ⟨called, split⟩ := flow.waiting
  rw [State.waiting, head, ← List.append_assoc] at split
  have nodup := flow.nodup
  rw [split, List.nodup_append] at nodup
  obtain ⟨-, last, apart⟩ := nodup
  have before : op ∉ called ++ s.done.map Prod.fst := fun member =>
    apart op member op List.mem_cons_self rfl
  have after : op ∉ rest := (List.nodup_cons.mp last).1
  refine ⟨flow.order, flow.waiting, ?pending, ?behind, ?finished, ?once, ?value, ?sent, flow.shut⟩
  case pending =>
    intro other member
    by_cases same : other = op
    · simpa [give, same] using flow.pending op queued
    · simpa [give, same] using flow.pending other member
  case behind =>
    intro other member
    have tail : other ∈ rest := by simpa [give, head] using member
    have ne : other ≠ op := ne_of_mem_of_not_mem tail after
    have untaken := flow.behind other (by simpa [head] using tail)
    simpa [give, ne] using untaken
  case finished =>
    intro other status member ok
    have ne : other ≠ op := by
      rintro rfl
      exact before (List.mem_append_right _ (List.mem_map_of_mem member))
    simpa [give, ne] using flow.finished other status member ok
  case once =>
    intro other
    by_cases same : other = op
    · simpa [give, same] using flow.once op
    · simpa [give, same] using flow.once other
  case value =>
    intro other v member
    by_cases same : other = op
    · simp [give, same, flow.pending op queued] at member
    · simp only [give, Function.update_of_ne same] at member ⊢
      exact flow.value other v member
  case sent =>
    have none_ : ∀ other ∈ rest, (s.writes other).sent = [] := by
      intro other member
      simp [Write.sent, flow.behind other (by simpa [head] using member)]
    have tail : (rest.flatMap fun other => (s.writes other).sent) = [] :=
      List.flatMap_eq_nil_iff.mpr none_
    have own : ((give s op n).writes op).sent =
        (s.writes op).sent ++ (s.writes op).unsent.take n := by
      simp only [give, Function.update_self, Write.sent, Write.unsent, List.take_add]
    have kept : ∀ ops : List Nat, op ∉ ops →
        (ops.flatMap fun other => ((give s op n).writes other).sent) =
          ops.flatMap fun other => (s.writes other).sent := fun _ outside => sent_update outside
    have sent := flow.sent
    rw [split, List.flatMap_append, List.flatMap_cons, tail, List.append_nil] at sent
    show s.sent ++ _ = s.accepted.flatMap _
    rw [split, List.flatMap_append, List.flatMap_cons, kept _ before, kept _ after, tail,
      List.append_nil, own, sent, List.append_assoc]

theorem finish_flow (flow : Flow s) (head : s.queue = op :: rest)
    (whole : 0 ≤ status → (s.writes op).unsent = []) : Flow (finish s op rest status) := by
  have same : (finish s op rest status).waiting = s.waiting := by
    simp [State.waiting, finish, head]
  refine ⟨flow.order, ?waiting, ?pending, ?behind, ?finished, flow.once, flow.value, flow.sent,
    ?shut⟩
  case waiting =>
    rw [same]
    exact flow.waiting
  case pending =>
    rw [same]
    exact flow.pending
  case behind =>
    intro other member
    have within : other ∈ s.queue.tail := by
      rw [head]
      exact List.mem_of_mem_tail member
    exact flow.behind other within
  case finished =>
    intro other status' member ok
    rcases List.mem_append.mp member with old | new
    · exact flow.finished other status' old ok
    · obtain ⟨rfl, rfl⟩ := Prod.mk.inj (List.mem_singleton.mp new)
      exact whole ok
  case shut =>
    intro shut
    have empty := flow.shut shut
    rw [head] at empty
    cases empty

theorem transmit_flow (flow : Flow s) (head : s.queue = op :: rest) :
    Flow (transmit s op rest n) := by
  unfold transmit
  simp only
  split
  · rename_i whole
    exact finish_flow (give_flow flow head) head fun _ => whole
  · exact give_flow flow head

/-- A value says that the status was no error. -/
theorem status_of_value {v : Value}
    (value : .setValue v = Operation.streamWriteOp.callback ⟨status, 0, 0⟩) : 0 ≤ status := by
  by_contra failed
  simp [Operation.streamWriteOp, complete, uvError, Int.not_le.mp failed] at value

theorem writeCallback_flow {rest : List (Nat × Int)} (flow : Flow s)
    (head : s.done = (op, status) :: rest) : Flow (writeCallback s op status rest) := by
  have first : op ∈ s.waiting := List.mem_append_left _ (by simp [head])
  have split : s.waiting = op :: (rest.map Prod.fst ++ s.queue) := by simp [State.waiting, head]
  have later : ∀ other ∈ rest.map Prod.fst ++ s.queue, other ≠ op ∧ other ∈ s.waiting := by
    obtain ⟨called, accepted⟩ := flow.waiting
    have nodup := flow.nodup
    rw [accepted, split, List.nodup_append] at nodup
    intro other member
    refine ⟨ne_of_mem_of_not_mem member (List.nodup_cons.mp nodup.2.1).1, ?_⟩
    rw [split]
    exact List.mem_cons_of_mem _ member
  refine ⟨flow.order, ?waiting, ?pending, ?behind, ?finished, ?once, ?value, ?sent, flow.shut⟩
  case waiting =>
    obtain ⟨called, accepted⟩ := flow.waiting
    refine ⟨called ++ [op], ?_⟩
    show s.accepted = called ++ [op] ++ (rest.map Prod.fst ++ s.queue)
    rw [accepted, split, List.append_assoc, List.singleton_append]
  case pending =>
    intro other member
    obtain ⟨ne, waits⟩ := later other member
    simpa [writeCallback, ne] using flow.pending other waits
  case behind =>
    intro other member
    obtain ⟨ne, -⟩ := later other (List.mem_append_right _ (List.mem_of_mem_tail member))
    simpa [writeCallback, ne] using flow.behind other member
  case finished =>
    intro other status' member ok
    obtain ⟨ne, -⟩ := later other (List.mem_append_left _ (List.mem_map_of_mem member))
    have among : (other, status') ∈ s.done := by
      rw [head]
      exact List.mem_cons_of_mem _ member
    simpa [writeCallback, ne, Write.unsent] using flow.finished other status' among ok
  case once =>
    intro other
    by_cases same : other = op
    · simp [writeCallback, same, flow.pending op first]
    · simpa [writeCallback, same] using flow.once other
  case value =>
    intro other v member
    by_cases same : other = op
    · rw [same] at member ⊢
      simp only [writeCallback, Function.update_self, flow.pending op first, List.nil_append,
        List.mem_singleton] at member
      have whole := flow.finished op status (by simp [head]) (status_of_value member)
      exact ⟨flow.accepted first, by simpa [writeCallback, Write.unsent] using whole⟩
    · simp only [writeCallback, Function.update_of_ne same] at member ⊢
      exact flow.value other v member
  case sent =>
    refine flow.sent.trans (List.flatMap_congr fun other _ => ?_)
    by_cases same : other = op
    · simp [writeCallback, same, Write.sent]
    · simp [writeCallback, same]

theorem step_flow (flow : Flow s) (taken : step s a = some s') : Flow s' := by
  cases Step.of_step taken with
  | startWrite msg rc accepts =>
      exact (startWrite_flow flow fun ok => (accepts ok).2.2).withStream _
  | transmit op n rest head active fits => exact (transmit_flow flow head).withStream _
  | fail op rest status head failed =>
      exact (finish_flow flow head fun ok => absurd failed (Int.not_lt.mpr ok)).withStream _
  | writeCallback op status rest head => exact (writeCallback_flow flow head).withStream _
  | startClose op rc => exact flow.withStream _
  | shutdownCallback op status asked drained succeeds =>
      have empty : s.queue = [] := (List.append_eq_nil_iff.mp drained).2
      exact ⟨flow.order, flow.waiting, flow.pending, flow.behind, flow.finished, flow.once,
        flow.value, flow.sent, fun _ => empty⟩
  | closeCallback op closing drained answered => exact flow.withStream _
  | unwritable => exact flow.withStream _

/-! ## Closes -/

/-- `write_queue_size` as libuv keeps it. -/
def Counted (s : State) : Prop := s.stream.handle.writeQueueSize = s.size

/-- The phase that a Close leaves, and the counter it does not touch. -/
theorem startClose_handle (h : StreamHandle.State) (op : Nat) (rc : Int) :
    (StreamHandle.startClose h op rc).handle.writeQueueSize = h.handle.writeQueueSize ∧
      ((StreamHandle.startClose h op rc).handle.phase = h.handle.phase ∨
        ¬ h.Unsent ∧ h.handle.phase = .active) := by
  rcases StreamHandle.startClose_cases h op rc with
    ⟨-, -, result⟩ | ⟨-, -, result⟩ | ⟨sent, active, result⟩ | ⟨-, -, result⟩
  · rw [result]
    exact ⟨rfl, .inl rfl⟩
  · rw [result]
    exact ⟨rfl, .inl rfl⟩
  · rw [result]
    exact ⟨rfl, .inr ⟨sent, active⟩⟩
  · rw [result]
    exact ⟨rfl, .inl rfl⟩

theorem closeCallback_size (h : StreamHandle.State) (op : Nat) :
    (StreamHandle.closeCallback h op).handle.writeQueueSize = h.handle.writeQueueSize := by
  unfold StreamHandle.closeCallback
  simp only
  split
  · rfl
  · rfl

theorem step_counted (right : Counted s) (taken : step s a = some s') : Counted s' := by
  cases Step.of_step taken with
  | startClose op rc => exact (startClose_handle s.stream op rc).1.trans right
  | shutdownCallback op status asked drained succeeds =>
      show (StreamHandle.shutdownCallback s.stream op status).handle.writeQueueSize = s.size
      rw [StreamHandle.shutdownCallback_handle]
      split
      · exact right
      · exact right
  | closeCallback op closing drained answered => exact (closeCallback_size _ _).trans right
  | unwritable => exact right
  | _ => rfl

/-- No message is cut short: what left the queue went out, and a handle that is closing
left nothing behind. -/
structure Whole (s : State) : Prop where
  finished : ∀ op ∈ s.accepted, op ∈ s.queue ∨ (s.writes op).unsent = []
  closed : s.stream.handle.phase ≠ .active → ∀ op ∈ s.accepted, (s.writes op).unsent = []

/-- The kernel fails no request of an open stream. -/
def Reliable (s : State) : Act → Prop
  | .fail _ => s.stream.handle.phase ≠ .active
  | _ => True

instance (s : State) : DecidablePred (Reliable s)
  | .fail _ => inferInstanceAs (Decidable (_ ≠ _))
  | .startWrite .. | .transmit _ | .writeCallback | .startClose .. | .shutdownCallback _
  | .closeCallback | .unwritable => .isTrue trivial

/-- A Close that finds the handle open finds it writable, or nothing unsent. -/
def Graceful (s : State) : Act → Prop
  | .startClose _ _ => s.stream.handle.phase = .active →
      s.stream.handle.writable = true ∨ s.stream.handle.writeQueueSize = 0
  | _ => True

instance (s : State) : DecidablePred (Graceful s)
  | .startClose _ _ => inferInstanceAs (Decidable (_ → _ ∨ _))
  | .startWrite .. | .transmit _ | .fail _ | .writeCallback | .shutdownCallback _
  | .closeCallback | .unwritable => .isTrue trivial

theorem unsent_of_size (none_ : s.size = 0) (member : op ∈ s.waiting) :
    (s.writes op).unsent = [] := by
  have empty := List.length_eq_zero_iff.mp none_
  exact List.flatMap_eq_nil_iff.mp empty op member

/-- Only the phase of the handle matters. -/
theorem Whole.withStream {stream : StreamHandle.State} (whole : Whole s)
    (closed : stream.handle.phase ≠ .active → ∀ op ∈ s.accepted, (s.writes op).unsent = []) :
    Whole { s with stream := stream } :=
  ⟨whole.finished, closed⟩

theorem startWrite_whole (flow : Flow s) (whole : Whole s)
    (opened : 0 ≤ rc → s.stream.handle.phase = .active) : Whole (startWrite s msg rc) := by
  have outside : s.started ∉ s.accepted := fun member => Nat.lt_irrefl _ (flow.started member)
  have kept : ∀ op ∈ s.accepted, (connect s msg).writes op = s.writes op := by
    intro op member
    exact Function.update_of_ne (ne_of_mem_of_not_mem member outside) ..
  have connected : Whole (connect s msg) := by
    refine ⟨fun op member => ?_, fun closed op member => ?_⟩
    · rw [kept op member]
      exact whole.finished op member
    · rw [kept op member]
      exact whole.closed closed op member
  unfold startWrite
  split
  · rename_i accepted
    refine ⟨fun op member => ?_, fun closed => absurd (opened accepted) closed⟩
    rcases List.mem_append.mp member with old | new
    · exact (connected.finished op old).imp_left fun queued => List.mem_append_left _ queued
    · exact .inl (List.mem_append_right _ new)
  · exact connected

theorem transmit_whole (whole : Whole s) (head : s.queue = op :: rest)
    (active : s.stream.handle.phase = .active) : Whole (transmit s op rest n) := by
  have given : Whole (give s op n) := by
    refine ⟨fun other member => ?_, fun closed => absurd active closed⟩
    by_cases same : other = op
    · exact .inl (by simp [give, same, head])
    · simpa [give, same] using whole.finished other member
  unfold transmit
  simp only
  split
  · rename_i out
    refine ⟨fun other member => ?_, fun closed => absurd active closed⟩
    rcases given.finished other member with queued | done
    · have among : other ∈ op :: rest := by
        rw [← head]
        exact queued
      rcases List.mem_cons.mp among with rfl | later
      · exact .inr out
      · exact .inl later
    · exact .inr done
  · exact given

theorem step_whole (flow : Flow s) (right : Counted s) (whole : Whole s) (reliable : Reliable s a)
    (graceful : Graceful s a) (taken : step s a = some s') : Whole s' := by
  cases Step.of_step taken with
  | startWrite msg rc accepts =>
      have started : Whole (startWrite s msg rc) :=
        startWrite_whole flow whole fun ok => (accepts ok).1
      exact started.withStream started.closed
  | transmit op n rest head active fits =>
      have sent : Whole (transmit s op rest n) := transmit_whole whole head active
      exact sent.withStream sent.closed
  | fail op rest status head failed =>
      exact ⟨fun other member => .inr (whole.closed reliable other member), whole.closed⟩
  | writeCallback op status rest head =>
      have same : ∀ other, ((writeCallback s op status rest).writes other).unsent =
          (s.writes other).unsent := by
        intro other
        by_cases own : other = op
        · simp [writeCallback, own, Write.unsent]
        · simp [writeCallback, own]
      refine ⟨fun other member => ?_, fun closed other member => ?_⟩
      · show other ∈ s.queue ∨ ((writeCallback s op status rest).writes other).unsent = []
        rw [same other]
        exact whole.finished other member
      · exact (same other).trans (whole.closed closed other member)
  | startClose op rc =>
      refine whole.withStream fun closed => ?_
      rcases (startClose_handle s.stream op rc).2 with same | ⟨sent, active⟩
      · rw [same] at closed
        exact whole.closed closed
      · -- The Close calls `uv_close`, so nothing was unsent.
        have none_ : s.size = 0 := by
          rw [← right]
          rcases graceful active with writable | none_
          · exact Nat.eq_zero_of_not_pos fun unsent => sent ⟨writable, unsent⟩
          · exact none_
        intro other member
        rcases whole.finished other member with queued | done
        · exact unsent_of_size none_ (List.mem_append_right _ queued)
        · exact done
  | shutdownCallback op status asked drained succeeds =>
      refine ⟨whole.finished, fun _ other member => ?_⟩
      have empty : s.queue = [] := (List.append_eq_nil_iff.mp drained).2
      rcases whole.finished other member with queued | done
      · rw [empty] at queued
        cases queued
      · exact done
  | closeCallback op closing drained answered =>
      refine whole.withStream fun _ => whole.closed ?_
      rw [closing]
      intro active
      cases active
  | unwritable => exact whole.withStream whole.closed

end Steps

/-! ## Whole messages -/

section Messages

variable {s : State}

theorem Flow.sent_whole (flow : Flow s) (out : ∀ op ∈ s.accepted, (s.writes op).unsent = []) :
    s.sent = s.accepted.flatMap fun op => (s.writes op).msg :=
  flow.sent.trans (List.flatMap_congr fun op member => Write.sent_of_unsent (out op member))

/-- Whole messages went out, and of the first in the queue the front. -/
theorem Whole.sent_prefix (flow : Flow s) (whole : Whole s) :
    s.sent <+: s.accepted.flatMap fun op => (s.writes op).msg := by
  obtain ⟨called, split⟩ := flow.waiting
  rw [State.waiting, ← List.append_assoc] at split
  have nodup := flow.nodup
  rw [split, List.nodup_append] at nodup
  have front : ∀ op ∈ called ++ s.done.map Prod.fst, (s.writes op).sent = (s.writes op).msg := by
    intro op member
    have accepted : op ∈ s.accepted := by
      rw [split]
      exact List.mem_append_left _ member
    rcases whole.finished op accepted with queued | out
    · exact absurd rfl (nodup.2.2 op member op queued)
    · exact Write.sent_of_unsent out
  have sent := flow.sent
  rw [split] at sent ⊢
  generalize called ++ s.done.map Prod.fst = before at sent front ⊢
  rw [sent, List.flatMap_append, List.flatMap_congr front, List.flatMap_append]
  refine (List.prefix_append_right_inj _).mpr ?_
  cases queue : s.queue with
  | nil => exact List.prefix_refl _
  | cons op rest =>
      have untaken : (rest.flatMap fun other => (s.writes other).sent) = [] := by
        refine List.flatMap_eq_nil_iff.mpr fun other member => ?_
        simp [Write.sent, flow.behind other (by simpa [queue] using member)]
      rw [List.flatMap_cons, List.flatMap_cons, untaken, List.append_nil]
      exact (List.take_prefix ..).trans (List.prefix_append ..)

/-- Writes that all completed with a value were all accepted. -/
theorem Flow.accepted_all (flow : Flow s)
    (values : ∀ op < s.started, ∃ v, .setValue v ∈ (s.writes op).completions) :
    s.accepted = List.range s.started := by
  refine flow.order.eq_of_length_le ?_
  refine List.nodup_range.length_le_of_subset fun op member => ?_
  obtain ⟨v, value⟩ := values op (List.mem_range.mp member)
  exact (flow.value op v value).1

end Messages

/-! ## Runs -/

section Runs

variable {acts : List Act} {s : State}

theorem init_flow : Flow init where
  order := List.Sublist.refl _
  waiting := ⟨[], rfl⟩
  pending := by simp [init, State.waiting]
  behind := by simp [init]
  finished := by simp [init]
  once := by simp [init]
  value := by simp [init]
  sent := rfl
  shut := by simp [init]

theorem init_counted : Counted init := rfl

theorem init_whole : Whole init where
  finished := by simp [init]
  closed := by simp [init]

theorem run_flow (reached : run step init acts = some s) : Flow s :=
  run_invariant (fun _ _ _ flow taken => step_flow flow taken) init_flow reached

theorem run_counted (reached : run step init acts = some s) : Counted s :=
  run_invariant (fun _ _ _ right taken => step_counted right taken) init_counted reached

theorem run_whole (meets : Along step (fun s a => Reliable s a ∧ Graceful s a) init acts)
    (reached : run step init acts = some s) : Whole s := by
  refine (meets.invariant (I := fun s => (Flow s ∧ Counted s) ∧ Whole s) ?_
    ⟨⟨init_flow, init_counted⟩, init_whole⟩ reached).2
  rintro s a s' ⟨⟨flow, right⟩, whole⟩ ⟨reliable, graceful⟩ taken
  exact ⟨⟨step_flow flow taken, step_counted right taken⟩,
    step_whole flow right whole reliable graceful taken⟩

/-- **Writes leave in the order they were started**, none twice, and a Write completes
with a value only after the kernel took its whole message.  Behind the first request in
the queue nothing has gone out. -/
theorem writes_leave_in_order (reached : run step init acts = some s) :
    s.accepted.Sublist (List.range s.started) ∧
    s.sent = (s.accepted.flatMap fun op => (s.writes op).msg.take (s.writes op).taken) ∧
    (∀ op, (s.writes op).completions.length ≤ 1 ∧
      ∀ v, .setValue v ∈ (s.writes op).completions →
        op ∈ s.accepted ∧ (s.writes op).msg.length ≤ (s.writes op).taken) ∧
    ∃ called, s.accepted = called ++ s.waiting ∧
      ∀ op ∈ s.queue.tail, (s.writes op).taken = 0 := by
  have flow := run_flow reached
  refine ⟨flow.order, flow.sent, fun op => ⟨flow.once op, fun v value => ?_⟩, ?_⟩
  · obtain ⟨accepted, out⟩ := flow.value op v value
    exact ⟨accepted, List.drop_eq_nil_iff.mp out⟩
  · obtain ⟨called, split⟩ := flow.waiting
    exact ⟨called, split, flow.behind⟩

/-- Two Writes, the first sent in two pieces and the second refused by a closing handle. -/
def twoWrites : List Act :=
  [.startWrite [1, 2, 3] 0, .transmit 2, .startWrite [4] 0, .transmit 1, .writeCallback,
    .transmit 1, .writeCallback, .startClose 0 0, .startWrite [5] (-32), .closeCallback]

theorem writes_leave_in_order_two :
    ∃ s, run step init twoWrites = some s ∧
      s.accepted.Sublist (List.range s.started) ∧
      s.sent = (s.accepted.flatMap fun op => (s.writes op).msg.take (s.writes op).taken) ∧
      s.accepted = [0, 1] ∧ s.sent = [1, 2, 3, 4] := by
  obtain ⟨s, reached⟩ : ∃ s, run step init twoWrites = some s := Option.isSome_iff_exists.mp rfl
  have state := Option.some.inj reached
  obtain ⟨order, sent, -⟩ := writes_leave_in_order reached
  refine ⟨s, reached, order, sent, ?_, ?_⟩
  · rw [← state]
    rfl
  · rw [← state]
    rfl

/-- What no Close may lose: once the handle is closing, no byte of an accepted Write is
unsent. -/
def Lossless (s : State) : Prop :=
  s.stream.handle.phase ≠ .active → ∀ op ∈ s.accepted, (s.writes op).unsent = []

/-- A Close that finds an open handle unwritable with bytes unsent drops them. -/
theorem graceful_of_lossless {s s' : State} {a : Act} (right : Counted s) (whole : Lossless s')
    (flow : Flow s) (taken : step s a = some s') : Graceful s a := by
  cases Step.of_step taken with
  | startClose op rc =>
      intro active
      by_cases writable : s.stream.handle.writable = true
      · exact .inl writable
      right
      have sent : ¬ s.stream.Unsent := fun unsent => writable unsent.1
      have closing : (StreamHandle.startClose s.stream op rc).handle.phase ≠ .active := by
        rw [StreamHandle.startClose_active sent active]
        intro opened
        cases opened
      rw [show s.stream.handle.writeQueueSize = s.size from right]
      refine List.length_eq_zero_iff.mpr (List.flatMap_eq_nil_iff.mpr fun other waits => ?_)
      exact whole closing other (flow.accepted waits)
  | _ => trivial

/-- **The Closes that lose nothing.**  On a stream whose requests the kernel does not
fail, a handle that is closing has sent every accepted byte, in every state of the run,
exactly when each Close that finds it open finds it writable or nothing unsent.  A Close
during the shutdown of another finds it open, unwritable and unsent. -/
theorem close_loses_nothing_iff (reached : run step init acts = some s)
    (reliable : Along step Reliable init acts) :
    (∀ t, Visits step init acts t → Lossless t) ↔ Along step Graceful init acts := by
  constructor
  · intro lossless
    refine along_of_visited (P := Lossless) ?_ reached lossless
    intro before t a t' prior _ taken whole
    exact graceful_of_lossless (run_counted prior) whole (run_flow prior) taken
  · rintro graceful t ⟨before, after, rfl, prior⟩
    have both := reliable.append_left.and graceful.append_left
    exact (run_whole both prior).closed

/-- The second Close cuts the shutdown of the first short. -/
def closeTwice : List Act :=
  [.startWrite [1, 2, 3] 0, .startClose 0 0, .unwritable, .startClose 1 0, .fail (-125),
    .writeCallback, .shutdownCallback (-125), .closeCallback]

theorem close_loses_nothing_iff_twice :
    ∃ s, run step init closeTwice = some s ∧
      ¬ ∀ t, Visits step init closeTwice t → Lossless t := by
  obtain ⟨s, reached⟩ : ∃ s, run step init closeTwice = some s := Option.isSome_iff_exists.mp rfl
  have abrupt : ¬ Along step Graceful init closeTwice := by decide
  exact ⟨s, reached, fun lossless =>
    abrupt ((close_loses_nothing_iff reached (by decide)).mp lossless)⟩

end Runs

end PatBase.Runtime.StreamWrite
