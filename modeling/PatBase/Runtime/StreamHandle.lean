/-
# PatBase.Runtime.StreamHandle -- one libuv stream handle and the operations on it

stream_read.h, stream_close.h and the Connect and move of tcp_socket.{h,cc}, all of
which store a pointer of their own in the one `data` slot of the handle and cast it
back in a callback.  `Target` says what a `void*` points to; a callback that finds
another object than the one it was registered for is counted in `strays`, and a
callback that reaches an operation already completed in `late`.

Libuv is the environment: which callback runs when, with which status, and what
its calls return comes with the action; `step` admits only what libuv documents.
A refused request never calls back, an accepted one once, `uv_close` stops reading
and calls back once, and `uv_read_start` is refused on a handle that is reading.
-/
import PatBase.Lib.Machine
import PatBase.Runtime.Operation
import Mathlib.Logic.Function.Basic

namespace PatBase.Runtime.StreamHandle

open PatBase.Lib.Machine

set_option autoImplicit false
set_option linter.unusedSectionVars false

/-! ## State -/

/-- What a `void* data` points to. -/
inductive Target where
  /-- The `TCPSocket` that contains the handle. -/
  | socket
  | read (op : Nat)
  | close (op : Nat)
  deriving DecidableEq, Repr

/-- `uv_is_closing` is true in every phase but the first. -/
inductive Phase where
  | active
  /-- `uv_close` was called by this operation; its callback is still to run. -/
  | closing (op : Nat)
  | closed
  deriving DecidableEq, Repr

structure Handle where
  data : Option Target
  /-- `uv_is_writable` -/
  writable : Bool
  writeQueueSize : Nat
  phase : Phase
  /-- The Read whose callbacks `uv_read_start` installed, while the handle reads. -/
  reading : Option Nat
  /-- Known to a loop: from `uv_tcp_init_ex` to the close callback. -/
  registered : Bool
  deriving DecidableEq, Repr

structure State where
  handle : Handle
  /-- The `data` of the `uv_shutdown` request that has yet to call back. -/
  shutdown : Option Nat
  /-- Connect senders whose continuation has yet to run; each captured `&handle_`. -/
  connects : Nat
  init : Bool
  started : List Target
  /-- The completions of an operation, each with the phase the handle was in. -/
  signals : Target → List (Completion × Phase)
  strays : Nat
  late : Nat

/-- A handle that no operation has used. -/
def State.ofHandle (handle : Handle) : State where
  handle := handle
  shutdown := none
  connects := 0
  init := handle.registered
  started := []
  signals := fun _ => []
  strays := 0
  late := 0

inductive Act where
  /-- `Connect()` is called and its sender created. -/
  | createConnect
  /-- The continuation of a Connect's `schedule()`, on the loop thread. -/
  | continueConnect
  /-- Another socket is move-constructed from this one. -/
  | moveOut
  /-- A Read is started; `uv_read_start` returns `rc`. -/
  | startRead (op : Nat) (rc : Int)
  | allocCallback
  | readCallback (nread : Int)
  /-- A Close is started; `uv_shutdown` returns `rc` if it is called. -/
  | startClose (op : Nat) (rc : Int)
  | shutdownCallback (status : Int)
  | closeCallback
  /-- Writes are queued and drained, the peer closes its side. -/
  | traffic (writable : Bool) (writeQueueSize : Nat)
  deriving DecidableEq, Repr

/-! ## Steps -/

/-- A callback registered by `owner` reaches an object through a `data` pointer. -/
def access (s : State) (owner : Target) (reached : Option Target) : State :=
  { s with
    strays := if reached = some owner then s.strays else s.strays + 1
    late :=
      match reached with
      | some target => if s.signals target = [] then s.late else s.late + 1
      | none => s.late }

/-- A completion signal of the operation `target`. -/
def signal (s : State) (target : Target) (completion : Completion) : State :=
  { s with
    signals := Function.update s.signals target
      (s.signals target ++ [(completion, s.handle.phase)]) }

/-- `start()` of an operation stores it in the slot of the handle. -/
def takeSlot (s : State) (target : Target) : State :=
  { s with
    handle := { s.handle with data := some target }
    started := s.started ++ [target] }

/-- `uv_close` with the close callback of the Close `op`. -/
def uvClose (s : State) (op : Nat) : State :=
  { s with handle := { s.handle with phase := .closing op, reading := none, writable := false } }

/-- The handle as the close callback finds it. -/
def uvClosed (s : State) : State :=
  { s with handle := { s.handle with phase := .closed, registered := false } }

def uvReadStop (s : State) : State :=
  { s with handle := { s.handle with reading := none } }

/-- `_stream_close::_op::start` -/
def startClose (s : State) (op : Nat) (rc : Int) : State :=
  let s := takeSlot s (.close op)
  if s.handle.writable = true ∧ 0 < s.handle.writeQueueSize then
    if 0 ≤ rc then { s with shutdown := some op } else s
  else if s.handle.phase = .active then uvClose s op
  else signal s (.close op) (.setValue .unit)

/-- The callback of `uv_shutdown`.  It finds its operation through the request, and
touches it again to close the handle. -/
def shutdownCallback (s : State) (op : Nat) (status : Int) : State :=
  let s := access { s with shutdown := none } (.close op) (some (.close op))
  let s := if status < 0 then signal s (.close op) (uvError status) else s
  let s := access s (.close op) (some (.close op))
  if s.handle.phase = .active then uvClose s op
  else signal s (.close op) (.setValue .unit)

/-- The callback of the `uv_close` called by `op`: it completes whatever Close the
handle's `data` points to. -/
def closeCallback (s : State) (op : Nat) : State :=
  let s := access (uvClosed s) (.close op) s.handle.data
  match s.handle.data with
  | some (.close reached) => signal s (.close reached) (.setValue .unit)
  | _ => s

/-- `_stream_read::_op::start` -/
def startRead (s : State) (op : Nat) (rc : Int) : State :=
  let s := takeSlot s (.read op)
  if 0 ≤ rc then { s with handle := { s.handle with reading := some op } } else s

/-- The read callback that `op` installed: it stops the reading and completes
whatever Read the handle's `data` points to. -/
def readCallback (s : State) (op : Nat) (nread : Int) : State :=
  let s := access (uvReadStop s) (.read op) s.handle.data
  match s.handle.data with
  | some (.read reached) => signal s (.read reached) (Operation.streamReadResult nread)
  | _ => s

/-- `Connect()`: the socket stores itself in the slot. -/
def createConnect (s : State) : State :=
  { s with handle := { s.handle with data := some .socket }, connects := s.connects + 1 }

/-- `uv_tcp_init_ex`, which leaves `data` as it is, and the cast to `TCPSocket*`. -/
def continueConnect (s : State) : State :=
  let s := { s with
    handle := ⟨s.handle.data, false, 0, .active, none, true⟩
    shutdown := none
    connects := s.connects - 1 }
  let s := access s .socket s.handle.data
  if s.handle.data = some .socket then { s with init := true } else s

/-- `TCPSocket(TCPSocket&&)`, as the moved-from socket sees it: the handle is zeroed
and its flags say closed. -/
def moveOut (s : State) : State :=
  { s with handle := ⟨none, false, 0, .closed, none, false⟩ }

def step (s : State) : Act → Option State
  | .createConnect => some (createConnect s)
  | .continueConnect => if 0 < s.connects then some (continueConnect s) else none
  | .moveOut => if s.handle.registered = false then some (moveOut s) else none
  | .startRead op rc =>
      if 0 ≤ rc → s.handle.registered = true ∧ s.handle.phase = .active ∧ s.handle.reading = none
      then some (startRead s op rc)
      else none
  | .allocCallback =>
      match s.handle.reading with
      | some op => some (access s (.read op) s.handle.data)
      | none => none
  | .readCallback nread =>
      match s.handle.reading with
      | some op => some (readCallback s op nread)
      | none => none
  | .startClose op rc => some (startClose s op rc)
  | .shutdownCallback status =>
      match s.shutdown with
      | some op => some (shutdownCallback s op status)
      | none => none
  | .closeCallback =>
      match s.handle.phase with
      | .closing op => some (closeCallback s op)
      | _ => none
  | .traffic writable writeQueueSize =>
      if s.handle.phase = .active then
        some { s with
          handle := { s.handle with writable := writable, writeQueueSize := writeQueueSize } }
      else none

/-- What each action does, and what holds where it is enabled. -/
inductive Step (s : State) : Act → State → Prop where
  | createConnect : Step s .createConnect (createConnect s)
  | continueConnect (created : 0 < s.connects) : Step s .continueConnect (continueConnect s)
  | moveOut (unregistered : s.handle.registered = false) : Step s .moveOut (moveOut s)
  | startRead (op : Nat) (rc : Int)
      (accepts : 0 ≤ rc →
        s.handle.registered = true ∧ s.handle.phase = .active ∧ s.handle.reading = none) :
      Step s (.startRead op rc) (startRead s op rc)
  | allocCallback (op : Nat) (reading : s.handle.reading = some op) :
      Step s .allocCallback (access s (.read op) s.handle.data)
  | readCallback (op : Nat) (nread : Int) (reading : s.handle.reading = some op) :
      Step s (.readCallback nread) (readCallback s op nread)
  | startClose (op : Nat) (rc : Int) : Step s (.startClose op rc) (startClose s op rc)
  | shutdownCallback (op : Nat) (status : Int) (asked : s.shutdown = some op) :
      Step s (.shutdownCallback status) (shutdownCallback s op status)
  | closeCallback (op : Nat) (closing : s.handle.phase = .closing op) :
      Step s .closeCallback (closeCallback s op)
  | traffic (writable : Bool) (writeQueueSize : Nat) (active : s.handle.phase = .active) :
      Step s (.traffic writable writeQueueSize) { s with
        handle := { s.handle with writable := writable, writeQueueSize := writeQueueSize } }

theorem Step.of_step {s s' : State} {a : Act} (taken : step s a = some s') : Step s a s' := by
  cases a with
  | createConnect =>
      cases taken
      exact .createConnect
  | continueConnect =>
      simp only [step, Option.ite_none_right_eq_some, Option.some.injEq] at taken
      obtain ⟨created, rfl⟩ := taken
      exact .continueConnect created
  | moveOut =>
      simp only [step, Option.ite_none_right_eq_some, Option.some.injEq] at taken
      obtain ⟨unregistered, rfl⟩ := taken
      exact .moveOut unregistered
  | startRead op rc =>
      simp only [step, Option.ite_none_right_eq_some, Option.some.injEq] at taken
      obtain ⟨accepts, rfl⟩ := taken
      exact .startRead op rc accepts
  | allocCallback =>
      simp only [step] at taken
      split at taken
      · rename_i op reading
        cases taken
        exact .allocCallback op reading
      · cases taken
  | readCallback nread =>
      simp only [step] at taken
      split at taken
      · rename_i op reading
        cases taken
        exact .readCallback op nread reading
      · cases taken
  | startClose op rc =>
      cases taken
      exact .startClose op rc
  | shutdownCallback status =>
      simp only [step] at taken
      split at taken
      · rename_i op asked
        cases taken
        exact .shutdownCallback op status asked
      · cases taken
  | closeCallback =>
      simp only [step] at taken
      split at taken
      · rename_i op closing
        cases taken
        exact .closeCallback op closing
      · cases taken
  | traffic writable writeQueueSize =>
      simp only [step, Option.ite_none_right_eq_some, Option.some.injEq] at taken
      obtain ⟨active, rfl⟩ := taken
      exact .traffic writable writeQueueSize active

/-! ## Accesses and signals -/

section Parts

variable {s : State} {owner target : Target} {reached : Option Target} {completion : Completion}
  {op : Nat} {rc status : Int}

/-- A callback that reaches its own pending operation leaves nothing to count. -/
theorem access_own (pending : s.signals owner = []) : access s owner (some owner) = s := by
  simp only [access, pending, if_true]

theorem access_other (other : reached ≠ some owner) :
    (access s owner reached).strays = s.strays + 1 :=
  if_neg other

/-- A callback touches its operation after the completion signal. -/
theorem access_completed (completed : s.signals owner ≠ []) :
    (access s owner (some owner)).late = s.late + 1 :=
  if_neg completed

@[simp] theorem signal_signals_self :
    (signal s target completion).signals target =
      s.signals target ++ [(completion, s.handle.phase)] :=
  Function.update_self ..

theorem signal_signals_other {other : Target} (ne : other ≠ target) :
    (signal s target completion).signals other = s.signals other :=
  Function.update_of_ne ne ..

/-- Strays and completions are only added. -/
def Grows (s s' : State) : Prop :=
  s.strays ≤ s'.strays ∧ ∀ target, s.signals target <+: s'.signals target

theorem Grows.refl (s : State) : Grows s s :=
  ⟨Nat.le_refl _, fun _ => List.prefix_refl _⟩

theorem Grows.trans {s₁ s₂ s₃ : State} (first : Grows s₁ s₂) (second : Grows s₂ s₃) :
    Grows s₁ s₃ :=
  ⟨Nat.le_trans first.1 second.1, fun target => (first.2 target).trans (second.2 target)⟩

theorem access_grows (s : State) (owner : Target) (reached : Option Target) :
    Grows s (access s owner reached) := by
  refine ⟨?_, fun _ => List.prefix_refl _⟩
  by_cases own : reached = some owner
  · exact Nat.le_of_eq (if_pos own).symm
  · exact Nat.le_trans (Nat.le_succ _) (Nat.le_of_eq (access_other own).symm)

theorem signal_grows (s : State) (target : Target) (completion : Completion) :
    Grows s (signal s target completion) := by
  refine ⟨Nat.le_refl _, fun other => ?_⟩
  by_cases same : other = target
  · rw [same, signal_signals_self]
    exact List.prefix_append _ _
  · refine ⟨[], ?_⟩
    rw [List.append_nil, signal_signals_other same]

/-! ## The start of a Close -/

/-- Unsent data goes first: the Close asks for a shutdown. -/
def State.Unsent (s : State) : Prop :=
  s.handle.writable = true ∧ 0 < s.handle.writeQueueSize

theorem startClose_accepted (unsent : s.Unsent) (accepted : 0 ≤ rc) :
    startClose s op rc = { takeSlot s (.close op) with shutdown := some op } :=
  (if_pos unsent).trans (if_pos accepted)

theorem startClose_refused (unsent : s.Unsent) (refused : ¬ 0 ≤ rc) :
    startClose s op rc = takeSlot s (.close op) :=
  (if_pos unsent).trans (if_neg refused)

theorem startClose_active (sent : ¬ s.Unsent) (active : s.handle.phase = .active) :
    startClose s op rc = uvClose (takeSlot s (.close op)) op :=
  (if_neg sent).trans (if_pos active)

theorem startClose_closing (sent : ¬ s.Unsent) (closing : s.handle.phase ≠ .active) :
    startClose s op rc = signal (takeSlot s (.close op)) (.close op) (.setValue .unit) :=
  (if_neg sent).trans (if_neg closing)

/-- The four ways a Close starts. -/
theorem startClose_cases (s : State) (op : Nat) (rc : Int) :
    (s.Unsent ∧ 0 ≤ rc ∧
      startClose s op rc = { takeSlot s (.close op) with shutdown := some op }) ∨
    (s.Unsent ∧ ¬ 0 ≤ rc ∧ startClose s op rc = takeSlot s (.close op)) ∨
    (¬ s.Unsent ∧ s.handle.phase = .active ∧
      startClose s op rc = uvClose (takeSlot s (.close op)) op) ∨
    (¬ s.Unsent ∧ s.handle.phase ≠ .active ∧
      startClose s op rc = signal (takeSlot s (.close op)) (.close op) (.setValue .unit)) := by
  by_cases unsent : s.Unsent
  · by_cases accepted : 0 ≤ rc
    · exact .inl ⟨unsent, accepted, startClose_accepted unsent accepted⟩
    · exact .inr (.inl ⟨unsent, accepted, startClose_refused unsent accepted⟩)
  · by_cases active : s.handle.phase = .active
    · exact .inr (.inr (.inl ⟨unsent, active, startClose_active unsent active⟩))
    · exact .inr (.inr (.inr ⟨unsent, active, startClose_closing unsent active⟩))

theorem startClose_started : (startClose s op rc).started = s.started ++ [.close op] := by
  rcases startClose_cases s op rc with
    ⟨-, -, result⟩ | ⟨-, -, result⟩ | ⟨-, -, result⟩ | ⟨-, -, result⟩ <;> rw [result] <;> rfl

theorem startClose_data : (startClose s op rc).handle.data = some (.close op) := by
  rcases startClose_cases s op rc with
    ⟨-, -, result⟩ | ⟨-, -, result⟩ | ⟨-, -, result⟩ | ⟨-, -, result⟩ <;> rw [result] <;> rfl

/-- Without unsent data no shutdown is asked for. -/
theorem startClose_sent (sent : ¬ s.Unsent) : (startClose s op rc).shutdown = s.shutdown := by
  rcases startClose_cases s op rc with
    ⟨unsent, -⟩ | ⟨unsent, -⟩ | ⟨-, -, result⟩ | ⟨-, -, result⟩
  · exact absurd unsent sent
  · exact absurd unsent sent
  · rw [result]
    rfl
  · rw [result]
    rfl

/-- With unsent data the handle stays as it is, apart from its slot. -/
theorem startClose_phase (unsent : s.Unsent) :
    (startClose s op rc).handle.phase = s.handle.phase := by
  rcases startClose_cases s op rc with
    ⟨-, -, result⟩ | ⟨-, -, result⟩ | ⟨sent, -⟩ | ⟨sent, -⟩
  · rw [result]
    rfl
  · rw [result]
    rfl
  · exact absurd unsent sent
  · exact absurd unsent sent

theorem startClose_grows (s : State) (op : Nat) (rc : Int) :
    Grows s (startClose s op rc) := by
  have taken : Grows s (takeSlot s (.close op)) := Grows.refl s
  rcases startClose_cases s op rc with
    ⟨-, -, result⟩ | ⟨-, -, result⟩ | ⟨-, -, result⟩ | ⟨-, -, result⟩
  · rw [result]
    exact taken
  · rw [result]
    exact taken
  · rw [result]
    exact taken
  · rw [result]
    exact taken.trans (signal_grows _ _ _)

/-! ## The callback of a shutdown -/

/-- What the callback has done when it looks whether the handle is closing: an error
may have been signalled, and the operation has been touched. -/
structure Touched (s : State) (op : Nat) (t : State) : Prop where
  handle : t.handle = s.handle
  shutdown : t.shutdown = none
  started : t.started = s.started
  connects : t.connects = s.connects
  strays : t.strays = s.strays
  others : ∀ target, target ≠ .close op → t.signals target = s.signals target
  grows : Grows s t

theorem access_touched {t : State} (touched : Touched s op t) :
    Touched s op (access t (.close op) (some (.close op))) :=
  ⟨touched.handle, touched.shutdown, touched.started, touched.connects,
    (if_pos rfl).trans touched.strays, touched.others, touched.grows.trans (access_grows _ _ _)⟩

theorem signal_touched {t : State} (touched : Touched s op t) (completion : Completion) :
    Touched s op (signal t (.close op) completion) :=
  ⟨touched.handle, touched.shutdown, touched.started, touched.connects, touched.strays,
    fun target other => (signal_signals_other other).trans (touched.others target other),
    touched.grows.trans (signal_grows _ _ _)⟩

/-- The callback of a shutdown closes an active handle; on any other it signals. -/
theorem shutdownCallback_touched (s : State) (op : Nat) (status : Int) :
    ∃ t, Touched s op t ∧ shutdownCallback s op status =
      if s.handle.phase = .active then uvClose t op
      else signal t (.close op) (.setValue .unit) := by
  have called : Touched s op { s with shutdown := none } :=
    ⟨rfl, rfl, rfl, rfl, rfl, fun _ _ => rfl, Grows.refl s⟩
  by_cases failed : status < 0
  · refine ⟨_, access_touched (signal_touched (access_touched called) (uvError status)), ?_⟩
    simp only [shutdownCallback, if_pos failed]
    rfl
  · refine ⟨_, access_touched (access_touched called), ?_⟩
    simp only [shutdownCallback, if_neg failed]
    rfl

theorem shutdownCallback_ok (pending : s.signals (.close op) = []) (ok : 0 ≤ status) :
    shutdownCallback s op status =
      if s.handle.phase = .active then uvClose { s with shutdown := none } op
      else signal { s with shutdown := none } (.close op) (.setValue .unit) := by
  have first : access { s with shutdown := none } (.close op) (some (.close op)) =
      { s with shutdown := none } := access_own pending
  simp only [shutdownCallback, first, if_neg (Int.not_lt.mpr ok)]

/-- After a failed shutdown the operation has its error and is touched again. -/
theorem shutdownCallback_late (pending : s.signals (.close op) = []) (failed : status < 0) :
    (shutdownCallback s op status).late = s.late + 1 := by
  have first : access { s with shutdown := none } (.close op) (some (.close op)) =
      { s with shutdown := none } := access_own pending
  have again : (access (signal { s with shutdown := none } (.close op) (uvError status))
      (.close op) (some (.close op))).late = s.late + 1 :=
    access_completed (by simp)
  simp only [shutdownCallback, first, if_pos failed]
  split
  · exact again
  · exact again

/-- A shutdown cancelled by `uv_close` signals an error and then a value. -/
theorem shutdownCallback_cancelled (failed : status < 0) (notActive : s.handle.phase ≠ .active) :
    (shutdownCallback s op status).signals (.close op) =
      s.signals (.close op) ++ [(uvError status, s.handle.phase)] ++
        [(.setValue .unit, s.handle.phase)] := by
  simp only [shutdownCallback, if_pos failed]
  split
  · rename_i active
    exact absurd active notActive
  · rw [signal_signals_self]
    show (signal _ _ _).signals _ ++ _ = _
    rw [signal_signals_self]
    rfl

theorem shutdownCallback_frame (s : State) (op : Nat) (status : Int) :
    (shutdownCallback s op status).started = s.started ∧
      (shutdownCallback s op status).shutdown = none ∧
      (shutdownCallback s op status).handle.data = s.handle.data ∧
      (shutdownCallback s op status).strays = s.strays ∧
      (shutdownCallback s op status).connects = s.connects := by
  obtain ⟨t, touched, result⟩ := shutdownCallback_touched s op status
  have data : t.handle.data = s.handle.data := by rw [touched.handle]
  rw [result]
  split
  · exact ⟨touched.started, touched.shutdown, data, touched.strays, touched.connects⟩
  · exact ⟨touched.started, touched.shutdown, data, touched.strays, touched.connects⟩

/-- The callback of a shutdown closes an active handle and leaves any other alone. -/
theorem shutdownCallback_handle (s : State) (op : Nat) (status : Int) :
    (shutdownCallback s op status).handle =
      if s.handle.phase = .active then
        { s.handle with phase := .closing op, reading := none, writable := false }
      else s.handle := by
  obtain ⟨t, touched, result⟩ := shutdownCallback_touched s op status
  rw [result, ← touched.handle]
  split
  · rfl
  · rfl

/-- Only the Close's own completions change. -/
theorem shutdownCallback_signals_other (other : target ≠ .close op) :
    (shutdownCallback s op status).signals target = s.signals target := by
  obtain ⟨t, touched, result⟩ := shutdownCallback_touched s op status
  rw [result]
  split
  · exact touched.others target other
  · exact (signal_touched touched _).others target other

theorem shutdownCallback_grows (s : State) (op : Nat) (status : Int) :
    Grows s (shutdownCallback s op status) := by
  obtain ⟨t, touched, result⟩ := shutdownCallback_touched s op status
  rw [result]
  split
  · exact touched.grows
  · exact (signal_touched touched _).grows

/-! ## The close callback -/

theorem closeCallback_slot (own : s.handle.data = some (.close op)) :
    closeCallback s op =
      signal (access (uvClosed s) (.close op) (some (.close op))) (.close op)
        (.setValue .unit) := by
  have slot : (access (uvClosed s) (.close op) (some (.close op))).handle.data =
      some (.close op) := own
  simp only [closeCallback, own, slot]

theorem closeCallback_own (pending : s.signals (.close op) = [])
    (own : s.handle.data = some (.close op)) :
    closeCallback s op = signal (uvClosed s) (.close op) (.setValue .unit) := by
  have first : access (uvClosed s) (.close op) (some (.close op)) = uvClosed s :=
    access_own pending
  rw [closeCallback_slot own, first]

/-- A close callback that finds another pointer in the slot. -/
theorem closeCallback_strays (other : s.handle.data ≠ some (.close op)) :
    (closeCallback s op).strays = s.strays + 1 := by
  have stray : (access (uvClosed s) (.close op) s.handle.data).strays = s.strays + 1 :=
    access_other other
  simp only [closeCallback]
  split
  · exact stray
  · exact stray

theorem closeCallback_frame (s : State) (op : Nat) :
    (closeCallback s op).started = s.started ∧ (closeCallback s op).shutdown = s.shutdown ∧
      (closeCallback s op).handle.phase = .closed ∧
      (closeCallback s op).handle.data = s.handle.data ∧
      (closeCallback s op).handle.writable = s.handle.writable := by
  unfold closeCallback
  simp only
  split
  · exact ⟨rfl, rfl, rfl, rfl, rfl⟩
  · exact ⟨rfl, rfl, rfl, rfl, rfl⟩

theorem closeCallback_grows (s : State) (op : Nat) : Grows s (closeCallback s op) := by
  have first : Grows s (access (uvClosed s) (.close op) s.handle.data) :=
    Grows.trans (Grows.refl s) (access_grows _ _ _)
  unfold closeCallback
  simp only
  split
  · exact first.trans (signal_grows _ _ _)
  · exact first

end Parts

end PatBase.Runtime.StreamHandle
