/-
# PatBase.Runtime.ContextPipelines -- `sync_wait`, and then `~context`

A program that waits for its pipelines, as test.cc does, and then destroys the context
calls the `stop()` of `~context` with nothing outstanding.  `Completes` says which steps of
the machine of `ContextRequests` a sender lets pass: its own `schedule()`, whose `::write`
succeeds, and what the loop thread and libuv do, until it has completed.

* `pipelines_leave_nothing_outstanding`: when a pipeline has completed, however it went,
  every operation it started has completed once, and none was refused; and a destructor
  that runs then leaves the loop with `uv_loop_close` succeeding.
-/
import PatBase.Lib.Trails
import PatBase.Runtime.ContextRequests

namespace PatBase.Runtime.ContextPipelines

open PatBase.Lib.Machine PatBase.Lib.Signals PatBase.Lib.Trails
open PatBase.Runtime.ContextRequests
open PatBase.Runtime.IoContext (Rests Work)

set_option autoImplicit false
set_option linter.unusedSectionVars false

universe u v w x

variable {Task : Type u} {L : Type v} {V : Type w} {X : Type x}

/-! ## What the senders do -/

/-- What the loop thread and libuv do. -/
def Environment : Act Task → Prop
  | .context (.schedule _ _ _) _ | .context (.stop _ _ _) _ => False
  | _ => True

/-- The signal, among the values and exceptions of the pipeline. -/
def carried (value : Value → V) (failure : Failure → X) : Signal Value Failure → Signal V X
  | .value v => .value (value v)
  | .error x => .error (failure x)
  | .done => .done

/-- The steps of each sender from its start to its completion, the wake-up pipe having room.
A sender without an operation does nothing to the context. -/
inductive Completes (operation : Task → Operation) (kind : L → Option Operation)
    (value : Value → V) (failure : Failure → X) :
    L → State Task → List (Act Task) → Signal V X → State Task → Prop where
  | other {l : L} {s s' : State Task} {acts : List (Act Task)} {signal : Signal V X}
      (nothing : kind l = none) (environment : ∀ a ∈ acts, Environment a) :
      Completes operation kind value failure l s acts signal s'
  | hops {l : L} {s s' : State Task} {acts : List (Act Task)} {task : Task}
      {signal : Signal Value Failure} (stopPossible : Bool)
      (hops : kind l = some (operation task))
      (new : Once s (.context (.schedule task stopPossible true) true))
      (environment : ∀ a ∈ acts, Environment a)
      (completed : (task, signal) ∈ s'.completed) :
      Completes operation kind value failure l s
        (.context (.schedule task stopPossible true) true :: acts) (carried value failure signal) s'

/-! ## Between the senders -/

/-- Each operation that was started has completed, once, and none is anywhere else. -/
structure Finished (s : State Task) : Prop where
  nodup : s.started.Nodup
  completed : s.started.Perm (s.completed.map Prod.fst)
  requests : s.requests = []
  refused : s.refused = []
  unexecuted : s.unexecuted = []

/-- No `stop()` was called, and each operation that was started has completed. -/
structure Idle (s : State Task) : Prop where
  ledger : Ledger s
  all : ∀ task ∈ s.started, task ∈ s.completed.map Prod.fst
  unstopped : s.context.history.stops = 0

/-- No operation is started twice, there is one `stop()`, and every `::write` succeeds. -/
def Disciplined (s : State Task) (a : Act Task) : Prop := Once s a ∧ Wakes s a

/-- What has completed stays so, and nothing is started. -/
structure Onward (s s' : State Task) : Prop where
  ledger : Ledger s'
  started : s'.started = s.started
  completed : s.completed <+: s'.completed
  stops : s'.context.history.stops = s.context.history.stops

section Senders

variable [DecidableEq Task] {operation : Task → Operation} {s s' t : State Task} {a : Act Task}
  {acts : List (Act Task)} {task : Task}

theorem environment_disciplined (environment : Environment a) : Disciplined s a := by
  cases a with
  | callback task report => exact ⟨trivial, trivial⟩
  | context a accepted =>
      cases a with
      | schedule task stopPossible wrote => cases environment
      | stop caller task wrote => cases environment
      | _ => exact ⟨trivial, trivial, trivial⟩

/-- Where each operation that was started has completed, there is none anywhere else. -/
theorem finished_of_completed (ledger : Ledger s)
    (all : ∀ task ∈ s.started, task ∈ s.completed.map Prod.fst) : Finished s := by
  have places : s.started.Perm
      (s.completed.map Prod.fst ++ (s.requests ++ s.refused ++ s.unexecuted)) := by
    rw [ledger.started, ← List.append_assoc, ← List.append_assoc]
    exact ledger.places.append_right _
  have nodup : s.started.Nodup := ledger.nodup.sublist (filterMap_sublist _)
  have apart := (List.nodup_append'.mp (places.nodup_iff.mp nodup)).2.2
  have elsewhere : s.requests ++ s.refused ++ s.unexecuted = [] := by
    apply List.eq_nil_iff_forall_not_mem.mpr
    intro task member
    have started := places.mem_iff.mpr (List.mem_append_right _ member)
    exact List.disjoint_left.mp apart (all task started) member
  obtain ⟨taken, unexecuted⟩ := List.append_eq_nil_iff.mp elsewhere
  obtain ⟨requests, refused⟩ := List.append_eq_nil_iff.mp taken
  rw [elsewhere, List.append_nil] at places
  exact ⟨nodup, places, requests, refused, unexecuted⟩

theorem Onward.refl (ledger : Ledger s) : Onward s s := ⟨ledger, rfl, List.prefix_rfl, rfl⟩

theorem Onward.all (onward : Onward s s')
    (all : ∀ task ∈ s.started, task ∈ s.completed.map Prod.fst) :
    ∀ task ∈ s'.started, task ∈ s'.completed.map Prod.fst := by
  intro task member
  rw [onward.started] at member
  exact (onward.completed.map _).subset (all task member)

/-- An operation that has completed stays so. -/
theorem continues_completed (s : State Task) (a : IoContext.Act Task) (accepted : Bool) :
    s.completed <+: (continues s a accepted).completed := by
  cases a with
  | execute stopRequested =>
      simp only [continues]
      cases s.context.loop with
      | executing task work =>
          cases work with
          | stopLet => exact List.prefix_rfl
          | receiver stopPossible =>
              simp only [hop]
              split
              · exact List.prefix_append ..
              · split <;> exact List.prefix_rfl
      | _ => exact List.prefix_rfl
  | _ => exact List.prefix_rfl

theorem environment_onward (environment : Environment a) (onward : Onward s t)
    (taken : step operation t a = some s') : Onward s s' := by
  have after := step_ledger onward.ledger (environment_disciplined environment).1 taken
  cases a with
  | callback task report =>
      simp only [step, Option.ite_none_right_eq_some, Option.some.injEq] at taken
      obtain ⟨-, rfl⟩ := taken
      exact ⟨after, onward.started, onward.completed.trans (List.prefix_append ..), onward.stops⟩
  | context a accepted =>
      obtain ⟨c, moved, rfl⟩ := context_step taken
      obtain ⟨grown, -⟩ := step_history onward.ledger.disciplined moved
      have silent : enqueued a = [] := by
        cases a with
        | schedule task stopPossible wrote => cases environment
        | stop caller task wrote => cases environment
        | _ => rfl
      refine ⟨after, ?_, onward.completed.trans (continues_completed t a accepted), ?_⟩
      · show (c.history.accepted ++ c.history.late).filterMap operationOf = _
        rw [grown, silent, List.append_nil]
        exact onward.started
      · rcases stops_kept moved with ⟨caller, task, wrote, rfl⟩ | same
        · cases environment
        · exact same.trans onward.stops

theorem environment_run (ledger : Ledger s) (environment : ∀ a ∈ acts, Environment a)
    (reached : run (step operation) s acts = some s') :
    Along (step operation) Disciplined s acts ∧ Onward s s' :=
  along_kept (D := Disciplined) (I := Onward s)
    (fun _ _ _ onward environment taken =>
      ⟨environment_disciplined environment, environment_onward environment onward taken⟩)
    environment (.refl ledger) reached

/-- The operation that is scheduled is the only one that has not completed. -/
theorem schedule_started {stopPossible : Bool} (idle : Idle s)
    (new : Once s (.context (.schedule task stopPossible true) true))
    (taken : step operation s (.context (.schedule task stopPossible true) true) = some s') :
    Ledger s' ∧ s'.started = s.started ++ [task] ∧ s'.completed = s.completed ∧
      s'.context.history.stops = 0 := by
  have after := step_ledger idle.ledger new taken
  obtain ⟨c, moved, rfl⟩ := context_step taken
  obtain ⟨grown, -⟩ := step_history idle.ledger.disciplined moved
  refine ⟨after, ?_, rfl, ?_⟩
  · show (c.history.accepted ++ c.history.late).filterMap operationOf = _
    rw [grown, List.filterMap_append]
    rfl
  · rcases stops_kept moved with ⟨_, _, _, other⟩ | same
    · cases other
    · exact same.trans idle.unstopped

/-- `stop()` starts no operation. -/
theorem stop_started {caller : IoContext.Caller} (idle : Idle s)
    (new : Once s (.context (.stop caller task true) true))
    (taken : step operation s (.context (.stop caller task true) true) = some s') :
    Ledger s' ∧ s'.started = s.started ∧ s'.completed = s.completed ∧
      s'.context.history.stops ≠ 0 := by
  have after := step_ledger idle.ledger new taken
  obtain ⟨c, moved, rfl⟩ := context_step taken
  obtain ⟨grown, -⟩ := step_history idle.ledger.disciplined moved
  refine ⟨after, ?_, rfl, ?_⟩
  · show (c.history.accepted ++ c.history.late).filterMap operationOf = _
    rw [grown, List.filterMap_append]
    exact List.append_nil _
  · cases IoContext.Step.of_step moved with
    | stop free alive => exact Nat.succ_ne_zero _

theorem completes_kept {kind : L → Option Operation} {value : Value → V} {failure : Failure → X}
    {l : L} {signal : Signal V X} (idle : Idle s)
    (moved : run (step operation) s acts = some s')
    (completed : Completes operation kind value failure l s acts signal s') :
    Along (step operation) Disciplined s acts ∧ Idle s' := by
  cases completed with
  | other nothing environment =>
      obtain ⟨along, onward⟩ := environment_run idle.ledger environment moved
      exact ⟨along, onward.ledger, onward.all idle.all, onward.stops.trans idle.unstopped⟩
  | hops stopPossible hops new environment completed =>
      obtain ⟨u, taken, later⟩ := run_cons_eq_some.mp moved
      obtain ⟨ledger, started, kept, unstopped⟩ := schedule_started idle new taken
      obtain ⟨along, onward⟩ := environment_run ledger environment later
      refine ⟨along_cons ⟨new, rfl, trivial⟩ taken along, onward.ledger, fun task member => ?_,
        onward.stops.trans unstopped⟩
      rw [onward.started, started] at member
      rcases List.mem_append.mp member with earlier | own
      · exact (onward.completed.map _).subset (kept ▸ idle.all task earlier)
      · rw [List.mem_singleton.mp own]
        exact List.mem_map_of_mem completed

end Senders

/-- **Pipelines leave nothing outstanding.**  When a pipeline has completed, whatever its
senders completed with, each operation it started has completed once, and none was
refused.  If the context is destroyed then, this stays so, and when the loop thread rests
it has left `run()` and `uv_loop_close` succeeds. -/
theorem pipelines_leave_nothing_outstanding [DecidableEq Task] {operation : Task → Operation}
    {kind : L → Option Operation} {value : Value → V} {failure : Failure → X}
    {p : Pipeline L V X} {signal : Signal V X} {next : Task → Option Task} {execute : Task → Work}
    {t : Trail (State Task) (Act Task) L V X}
    (executed : Exec (Goes (step operation) (Completes operation kind value failure)) p
      (.start (init next execute)) signal t) :
    run (step operation) (init next execute) t.acts = some t.state ∧ Finished t.state ∧
      ∀ task later s, Once t.state (.context (.stop .destructor task true) true) →
        (∀ a ∈ later, Environment a) →
        run (step operation) t.state (.context (.stop .destructor task true) true :: later) =
          some s →
        Finished s ∧ uvLoopClose s = 0 ∧ (Rests s.context → s.context.loop = .left) := by
  have start : Idle (init next execute) := ⟨init_ledger, nofun, rfl⟩
  obtain ⟨reached, along, idle⟩ := executed_along_of_invariant (D := Disciplined)
    (fun _ _ _ _ _ idle moved completed => completes_kept idle moved completed) start executed
  refine ⟨reached, finished_of_completed idle.ledger idle.all,
    fun task later s new environment ran => ?_⟩
  obtain ⟨u, taken, rest⟩ := run_cons_eq_some.mp ran
  obtain ⟨ledger, started, kept, called⟩ := stop_started idle new taken
  obtain ⟨back, onward⟩ := environment_run ledger environment rest
  have finished : Finished s := by
    refine finished_of_completed onward.ledger (onward.all fun task member => ?_)
    rw [kept]
    exact idle.all task (started ▸ member)
  have whole := along_append along reached (along_cons ⟨new, rfl, idle.unstopped⟩ taken back)
  obtain ⟨acts, moved, meets⟩ :=
    run_context whole (run_append_eq_some.mpr ⟨t.state, reached, ran⟩)
  exact ⟨finished, if_pos finished.requests, fun rests =>
    (rests.left meets moved (onward.stops ▸ called)).1⟩

/-! ## A Read and then a Close -/

/-- The operations that hop. -/
def twoOperations : Nat → Operation
  | 1 => Operation.readOp
  | _ => Operation.closeOp

def readThenClose : Pipeline Operation Value Failure :=
  (Pipeline.leaf Operation.readOp).andLet fun _ => .leaf Operation.closeOp

/-- The loop thread comes to the task, and libuv to its request. -/
def served (task : Nat) (report : Report) : List (Act Nat) :=
  [.context .readByte true, .context .dequeueall true, .context (.execute false) true,
    .callback task report]

/-- Five steps for each of the two. -/
def steps : List (Act Nat) :=
  .context (.schedule 1 false true) true :: served 1 ⟨5, 0, 0⟩ ++
    .context (.schedule 2 false true) true :: served 2 ⟨0, 0, 0⟩

def calls : List (Operation × Signal Value Failure) :=
  [(Operation.readOp, .value (.count 5)), (Operation.closeOp, .value .unit)]

def start : State Nat := init (fun _ => none) fun _ => .receiver false

/-- What is left behind by the first `n` senders. -/
def left (n : Nat) : Trail (State Nat) (Act Nat) Operation Value Failure :=
  ⟨(run (step twoOperations) start (steps.take (5 * n))).getD start, steps.take (5 * n),
    calls.take n⟩

/-- The steps of the destructor's `stop()`. -/
def stopping : List (Act Nat) :=
  [.context .readByte true, .context .dequeueall true, .context (.execute false) true,
    .context .closeCallback true, .context .leave true]

theorem pipelines_leave_nothing_outstanding_read :
    ∃ signal t, Exec (Goes (step twoOperations) (Completes twoOperations some id id))
        readThenClose (.start start) signal t ∧
      t.acts = steps ∧ t.state.started.Perm (t.state.completed.map Prod.fst) ∧
      t.state.completed = [(1, .value (.count 5)), (2, .value .unit)] ∧ t.state.refused = [] ∧
      ∃ s, run (step twoOperations) t.state
          (.context (.stop .destructor 3 true) true :: stopping) = some s ∧
        s.context.loop = .left ∧ uvLoopClose s = 0 := by
  have read : Goes (step twoOperations) (Completes twoOperations some id id) Operation.readOp
      (.start start) (.value (.count 5)) (left 1) :=
    ⟨_, rfl, @Completes.hops _ _ _ _ twoOperations some id id _ _ _ (served 1 ⟨5, 0, 0⟩) 1
      (.value (.count 5)) false rfl List.not_mem_nil (by simp [served, Environment])
      List.mem_cons_self, rfl, rfl⟩
  have closed : Goes (step twoOperations) (Completes twoOperations some id id) Operation.closeOp
      (left 1) (.value .unit) (left 2) :=
    ⟨_, rfl, @Completes.hops _ _ _ _ twoOperations some id id _ _ _ (served 2 ⟨0, 0, 0⟩) 2
      (.value .unit) false rfl (by show 2 ∉ [1]; decide) (by simp [served, Environment])
      (List.mem_cons_of_mem _ List.mem_cons_self), rfl, rfl⟩
  have executed : Exec (Goes (step twoOperations) (Completes twoOperations some id id))
      readThenClose (.start start) (.value .unit) (left 2) :=
    Exec.andLet (.leaf read) (.leaf closed)
  obtain ⟨-, finished, destroyed⟩ := pipelines_leave_nothing_outstanding executed
  have fresh : Once (left 2).state (.context (.stop .destructor 3 true) true) := by
    show 3 ∉ [1, 2]
    decide
  obtain ⟨-, closes, -⟩ := destroyed 3 stopping _ fresh (by simp [stopping, Environment]) rfl
  exact ⟨_, _, executed, rfl, finished.completed, rfl, finished.refused, _, rfl, rfl, closes⟩

end PatBase.Runtime.ContextPipelines
