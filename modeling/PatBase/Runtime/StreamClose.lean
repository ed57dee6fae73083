/-
# PatBase.Runtime.StreamClose -- one Close of a stream

A Close either calls `uv_close` itself, or first asks for a shutdown and calls
`uv_close` in its callback; it completes in the callback of `uv_close`, or at once
when the handle is closing already.  `Orderly` lists the states of a handle whose
Closes wait for one another.

* `close_completes_iff`: for every state of the handle, a Close completes once and
  closes the handle exactly when there was nothing unsent or the shutdown was
  accepted and succeeded.

`failed_shutdown_completes_twice` is a Close whose shutdown fails.
-/
import PatBase.Runtime.StreamHandle

namespace PatBase.Runtime.StreamHandle

open PatBase.Lib.Machine

set_option autoImplicit false
set_option linter.unusedSectionVars false

variable {s s' : State} {op : Nat} {rc status : Int} {a : Act} {acts : List Act}

/-! ## The states of a Close -/

/-- Nothing has been started on the handle. -/
structure Idle (s : State) : Prop where
  phase : ∀ op, s.handle.phase ≠ .closing op
  shutdown : s.shutdown = none
  started : s.started = []
  unsignalled : ∀ target, s.signals target = []
  strays : s.strays = 0
  late : s.late = 0

/-- The only Close started has yet to complete, and holds the slot. -/
structure Pending (s : State) (op : Nat) : Prop where
  data : s.handle.data = some (.close op)
  started : s.started = [.close op]
  unsignalled : ∀ target, s.signals target = []
  strays : s.strays = 0
  late : s.late = 0

/-- The handle is closed and every Close started has completed. -/
structure Closed (s : State) : Prop where
  phase : s.handle.phase = .closed
  shutdown : s.shutdown = none
  completed : ∀ target ∈ s.started, s.signals target = [(.setValue .unit, .closed)]
  unsignalled : ∀ target, target ∉ s.started → s.signals target = []
  strays : s.strays = 0
  late : s.late = 0

inductive Orderly (s : State) : Prop where
  | idle (idle : Idle s)
  | shutting (op : Nat) (pending : Pending s op) (shutdown : s.shutdown = some op)
      (phase : ∀ other, s.handle.phase ≠ .closing other)
  | closing (op : Nat) (pending : Pending s op) (shutdown : s.shutdown = none)
      (phase : s.handle.phase = .closing op)
  | closed (closed : Closed s)

theorem idle_ofHandle {handle : Handle} (settled : ∀ op, handle.phase ≠ .closing op) :
    Idle (State.ofHandle handle) :=
  ⟨settled, rfl, rfl, fun _ => rfl, rfl, rfl⟩

theorem Idle.takeSlot (idle : Idle s) (op : Nat) : Pending (takeSlot s (.close op)) op where
  data := rfl
  started := by
    show s.started ++ [.close op] = [.close op]
    rw [idle.started, List.nil_append]
  unsignalled := idle.unsignalled
  strays := idle.strays
  late := idle.late

/-- The completion of the pending Close, on a closed handle. -/
theorem Pending.closed (pending : Pending s op) (phase : s.handle.phase = .closed)
    (shutdown : s.shutdown = none) : Closed (signal s (.close op) (.setValue .unit)) where
  phase := phase
  shutdown := shutdown
  completed target member := by
    have same : target = .close op := by
      have among : target ∈ s.started := member
      rw [pending.started] at among
      exact List.mem_singleton.mp among
    rw [same, signal_signals_self, pending.unsignalled, phase, List.nil_append]
  unsignalled target outside := by
    have ne : target ≠ .close op := by
      intro same
      apply outside
      show target ∈ s.started
      rw [pending.started, same]
      exact List.mem_singleton_self _
    rw [signal_signals_other ne]
    exact pending.unsignalled target
  strays := pending.strays
  late := pending.late

/-! ## Steps -/

/-- Starting a Close on an unused handle, its shutdown not refused. -/
theorem Idle.startClose (idle : Idle s) (accepted : s.Unsent → 0 ≤ rc) :
    Orderly (startClose s op rc) := by
  have pending := idle.takeSlot op
  rcases startClose_cases s op rc with
    ⟨-, -, result⟩ | ⟨unsent, refused, -⟩ | ⟨-, -, result⟩ | ⟨-, notActive, result⟩
  · rw [result]
    exact .shutting op ⟨pending.data, pending.started, pending.unsignalled, pending.strays,
      pending.late⟩ rfl idle.phase
  · exact absurd (accepted unsent) refused
  · rw [result]
    exact .closing op ⟨pending.data, pending.started, pending.unsignalled, pending.strays,
      pending.late⟩ idle.shutdown rfl
  · rw [result]
    refine .closed (pending.closed ?_ idle.shutdown)
    cases phase : s.handle.phase with
    | active => exact absurd phase notActive
    | closing other => exact absurd phase (idle.phase other)
    | closed => exact phase

/-- Starting another Close on a closed handle. -/
theorem Closed.startClose (closed : Closed s) (sent : ¬ s.Unsent)
    (fresh : .close op ∉ s.started) : Closed (startClose s op rc) := by
  have notActive : s.handle.phase ≠ .active := by
    simp [closed.phase]
  rw [startClose_closing sent notActive]
  refine ⟨closed.phase, closed.shutdown, fun target member => ?_, fun target outside => ?_,
    closed.strays, closed.late⟩
  · have among : target ∈ s.started ++ [.close op] := member
    rcases List.mem_append.mp among with old | new
    · have ne : target ≠ .close op := fun same => fresh (same ▸ old)
      rw [signal_signals_other ne]
      exact closed.completed target old
    · rw [List.mem_singleton.mp new, signal_signals_self]
      show s.signals (.close op) ++ [(_, s.handle.phase)] = _
      rw [closed.unsignalled _ fresh, closed.phase, List.nil_append]
  · have outside' : target ∉ s.started ++ [.close op] := outside
    rw [List.mem_append, not_or] at outside'
    have ne : target ≠ .close op := fun same => outside'.2 (same ▸ List.mem_singleton_self _)
    rw [signal_signals_other ne]
    exact closed.unsignalled target outside'.1

/-- A step that libuv takes on its own, a shutdown callback having this status. -/
def LibuvStep (status : Int) : Act → Prop
  | .shutdownCallback reported => reported = status
  | .closeCallback => True
  | .traffic _ _ => True
  | _ => False

/-- Libuv starts no operation and asks for no shutdown. -/
theorem step_libuv (own : LibuvStep status a) (taken : step s a = some s') :
    s'.started = s.started ∧ (s'.shutdown ≠ none → s.shutdown ≠ none) := by
  cases Step.of_step taken with
  | shutdownCallback op reported asked =>
      obtain ⟨started, shutdown, -⟩ := shutdownCallback_frame s op reported
      exact ⟨started, fun still => absurd shutdown still⟩
  | closeCallback op closing =>
      obtain ⟨started, shutdown, -⟩ := closeCallback_frame s op
      exact ⟨started, fun asked => shutdown ▸ asked⟩
  | traffic => exact ⟨rfl, id⟩
  | _ => cases own

/-- A shutdown that succeeds: the handle is closed next, or was closed before. -/
theorem shutdownCallback_orderly (orderly : Orderly s) (asked : s.shutdown = some op)
    (ok : 0 ≤ status) : Orderly (shutdownCallback s op status) := by
  cases orderly with
  | idle idle => cases idle.shutdown.symm.trans asked
  | closing other pending shutdown phase => cases shutdown.symm.trans asked
  | closed closed => cases closed.shutdown.symm.trans asked
  | shutting other pending shutdown phase =>
      obtain rfl : other = op := Option.some.inj (shutdown.symm.trans asked)
      rw [shutdownCallback_ok (pending.unsignalled _) ok]
      have kept : Pending { s with shutdown := none } other := ⟨pending.data, pending.started,
        pending.unsignalled, pending.strays, pending.late⟩
      split
      · exact .closing other
          ⟨kept.data, kept.started, kept.unsignalled, kept.strays, kept.late⟩ rfl rfl
      · rename_i notActive
        refine .closed (kept.closed ?_ rfl)
        cases at_ : s.handle.phase with
        | active => exact absurd at_ notActive
        | closing op => exact absurd at_ (phase op)
        | closed => rfl

/-- The close callback completes the Close that was waiting for it. -/
theorem closeCallback_orderly (orderly : Orderly s) (closing : s.handle.phase = .closing op) :
    Orderly (closeCallback s op) := by
  cases orderly with
  | idle idle => exact absurd closing (idle.phase op)
  | shutting other pending shutdown phase => exact absurd closing (phase op)
  | closed closed => cases closed.phase.symm.trans closing
  | closing other pending shutdown phase =>
      obtain rfl : other = op := Phase.closing.inj (phase.symm.trans closing)
      rw [closeCallback_own (pending.unsignalled _) pending.data]
      have kept : Pending (uvClosed s) other := ⟨pending.data, pending.started,
        pending.unsignalled, pending.strays, pending.late⟩
      exact .closed (kept.closed rfl shutdown)

/-- **Libuv's steps keep the Closes in order**, as long as no shutdown fails. -/
theorem step_orderly (orderly : Orderly s) (own : LibuvStep status a)
    (ok : s.shutdown ≠ none → 0 ≤ status) (taken : step s a = some s') : Orderly s' := by
  cases Step.of_step taken with
  | shutdownCallback op reported asked =>
      obtain rfl : reported = status := own
      exact shutdownCallback_orderly orderly asked (ok (by simp [asked]))
  | closeCallback op closing => exact closeCallback_orderly orderly closing
  | traffic writable size active =>
      cases orderly with
      | idle idle =>
          exact .idle ⟨idle.phase, idle.shutdown, idle.started, idle.unsignalled, idle.strays,
            idle.late⟩
      | shutting op pending shutdown phase =>
          exact .shutting op ⟨pending.data, pending.started, pending.unsignalled, pending.strays,
            pending.late⟩ shutdown phase
      | closing op pending shutdown phase => cases phase.symm.trans active
      | closed closed => cases closed.phase.symm.trans active
  | _ => cases own

/-! ## One Close -/

/-- Libuv owes no callback of a Close. -/
def Quiet (s : State) : Prop :=
  s.shutdown = none ∧ ∀ op, s.handle.phase ≠ .closing op

/-- The Close `op` completes at most once -- once, when libuv owes no callback --, is
not touched afterwards, and the handle was closed when it completed. -/
structure CompletesOnce (s : State) (op : Nat) : Prop where
  once : (s.signals (.close op)).length ≤ 1
  quiet : Quiet s → (s.signals (.close op)).length = 1
  untouched : s.late = 0
  closed : ∀ completion ∈ s.signals (.close op), completion.2 = .closed

theorem Orderly.completesOnce (orderly : Orderly s) (member : .close op ∈ s.started) :
    CompletesOnce s op := by
  cases orderly with
  | idle idle =>
      rw [idle.started] at member
      cases member
  | shutting other pending shutdown phase =>
      rw [pending.started, List.mem_singleton] at member
      refine ⟨?_, fun quiet => ?_, pending.late, ?_⟩
      · simp [pending.unsignalled]
      · cases shutdown.symm.trans quiet.1
      · simp [pending.unsignalled]
  | closing other pending shutdown phase =>
      refine ⟨?_, fun quiet => absurd phase (quiet.2 other), pending.late, ?_⟩
      · simp [pending.unsignalled]
      · simp [pending.unsignalled]
  | closed closed =>
      have signals := closed.completed _ member
      refine ⟨?_, fun _ => ?_, closed.late, ?_⟩
      · simp [signals]
      · simp [signals]
      · simp [signals]

/-- **When a Close completes**: for every state of the handle, return code of
`uv_shutdown` and status of its callback, the Close completes once and closes the
handle exactly when nothing was unsent or the shutdown was accepted and succeeded. -/
theorem close_completes_iff (handle : Handle) (settled : ∀ other, handle.phase ≠ .closing other)
    (op : Nat) (rc status : Int) :
    (∀ acts s, (∀ a ∈ acts, LibuvStep status a) →
        run step (State.ofHandle handle) (.startClose op rc :: acts) = some s →
        CompletesOnce s op) ↔
      (handle.writable = true → 0 < handle.writeQueueSize → 0 ≤ rc ∧ 0 ≤ status) := by
  have idle := idle_ofHandle settled
  constructor
  · intro completes writable unsentBytes
    have unsent : (State.ofHandle handle).Unsent := ⟨writable, unsentBytes⟩
    have accepted : 0 ≤ rc := by
      by_contra refused
      have stopped : run step (State.ofHandle handle) [.startClose op rc] =
          some (takeSlot (State.ofHandle handle) (.close op)) := by
        rw [← startClose_refused unsent refused]
        rfl
      have once := (completes [] _ (by simp) stopped).quiet ⟨rfl, settled⟩
      cases once
    refine ⟨accepted, ?_⟩
    by_contra failed
    have failed' : status < 0 := Int.not_le.mp failed
    have called : run step (State.ofHandle handle) [.startClose op rc, .shutdownCallback status] =
        some (shutdownCallback { takeSlot (State.ofHandle handle) (.close op) with
          shutdown := some op } op status) := by
      simp only [run, step, startClose_accepted unsent accepted, Option.bind_some]
    have untouched := (completes [.shutdownCallback status] _ (by simp [LibuvStep]) called).untouched
    rw [shutdownCallback_late rfl failed'] at untouched
    cases untouched
  · intro holds acts s own reached
    obtain ⟨first, started, rest⟩ := run_cons_eq_some.mp reached
    cases started
    have start : Orderly (startClose (State.ofHandle handle) op rc) ∧
        .close op ∈ (startClose (State.ofHandle handle) op rc).started ∧
        ((startClose (State.ofHandle handle) op rc).shutdown ≠ none → 0 ≤ status) := by
      refine ⟨idle.startClose fun unsent => (holds unsent.1 unsent.2).1, ?_, ?_⟩
      · rw [startClose_started]
        exact List.mem_append_right _ (List.mem_singleton_self _)
      · intro asked
        by_cases unsent : (State.ofHandle handle).Unsent
        · exact (holds unsent.1 unsent.2).2
        · exact absurd (startClose_sent unsent) asked
    have kept : Orderly s ∧ .close op ∈ s.started ∧ (s.shutdown ≠ none → 0 ≤ status) := by
      refine (along_of_forall own).invariant (I := fun s =>
        Orderly s ∧ .close op ∈ s.started ∧ (s.shutdown ≠ none → 0 ≤ status)) ?_ start rest
      rintro s a s' ⟨orderly, member, ok⟩ libuv taken
      obtain ⟨started, asked⟩ := step_libuv libuv taken
      exact ⟨step_orderly orderly libuv ok taken, started ▸ member, fun some_ => ok (asked some_)⟩
    exact kept.1.completesOnce kept.2.1

/-- A Close of a socket with five unsent bytes, its shutdown accepted. -/
theorem close_completes_iff_unsent :
    (∀ acts s, (∀ a ∈ acts, LibuvStep 0 a) →
        run step (State.ofHandle ⟨none, true, 5, .active, none, true⟩)
          (.startClose 0 0 :: acts) = some s →
        CompletesOnce s 0) ↔
      (true = true → 0 < 5 → (0 : Int) ≤ 0 ∧ (0 : Int) ≤ 0) :=
  close_completes_iff ⟨none, true, 5, .active, none, true⟩ nofun 0 0 0

/-- The peer has reset the connection: the Close fails, then completes a second time
when the handle is closed. -/
theorem failed_shutdown_completes_twice :
    ∃ s, run step (State.ofHandle ⟨none, true, 5, .active, none, true⟩)
        [.startClose 0 0, .shutdownCallback (-104), .closeCallback] = some s ∧
      s.signals (.close 0) =
        [(uvError (-104), .active), (.setValue .unit, .closed)] ∧
      s.late = 2 ∧ ¬ CompletesOnce s 0 :=
  ⟨_, rfl, rfl, rfl, fun completes => absurd completes.untouched (by decide)⟩

end PatBase.Runtime.StreamHandle
