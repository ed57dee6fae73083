/-
# PatBase.Runtime.ContextRequests -- operations from `schedule()` to `~context`

`File::Open`, `Read`, `Write` and `Close`, `Connect` and `LookupIp` are one shape:
`schedule()` brings them to the loop thread, the `let` behind it starts a sender that
makes a libuv request there, and the loop calls back when the request is served.  This is
the machine of `IoContext` with these requests beside it.  `start()` does not look at what
libuv returns, so an operation whose request it refuses has no callback to come; and
nothing keeps the loop thread in `run()` while requests are outstanding.

* `operations_accounted_for`: in every state of every run each operation that was started
  has completed once, or waits for its callback, or was refused, or is still queued; once
  the loop thread has left `run()` this is final, and `uv_loop_close` in `~context` fails
  exactly if a request is outstanding.
* `waited_for_completes`: where `stop()` is called when everything started has come to its
  end, nothing is left behind.
-/
import PatBase.Lib.Simulation
import PatBase.Runtime.IoContextProgress
import PatBase.Runtime.LoopHandles
import PatBase.Runtime.Operation

namespace PatBase.Runtime.ContextRequests

open PatBase.Lib.Machine
open PatBase.Runtime.IoContext (Context Disciplined Job Ordered Rests Work)
open PatBase.Runtime.LoopHandles (UV_EBUSY)

set_option autoImplicit false
set_option linter.unusedSectionVars false

universe u

/-! ## State -/

/-- A task is the `schedule()` part of an operation, or of a `stop()` call. -/
structure State (Task : Type u) where
  context : Context Task
  /-- The operations whose requests libuv has. -/
  requests : List Task
  /-- Those whose requests it did not take. -/
  refused : List Task
  /-- Those that have completed, with their signals, in order. -/
  completed : List (Task × Lib.Signals.Signal Value Failure)

inductive Act (Task : Type u) where
  /-- A step of the context.  If it starts the sender behind `schedule()`, libuv takes the
  request or does not. -/
  | context (a : IoContext.Act Task) (accepted : Bool)
  /-- The loop calls back with this report. -/
  | callback (task : Task) (report : Report)

variable {Task : Type u}

def init (next : Task → Option Task) (execute : Task → Work) : State Task where
  context := IoContext.init next execute
  requests := []
  refused := []
  completed := []

/-! ## Steps -/

/-- What follows `schedule()`: `done` completes the operation, a value starts its request. -/
def hop (s : State Task) (task : Task) (signal : IoContext.Signal) (accepted : Bool) :
    State Task :=
  match signal with
  | .done => { s with completed := s.completed ++ [(task, .done)] }
  | .value =>
      if accepted then { s with requests := s.requests ++ [task] }
      else { s with refused := s.refused ++ [task] }

/-- What a step of the context does to the operations. -/
def continues (s : State Task) : IoContext.Act Task → Bool → State Task
  | .execute stopRequested, accepted =>
      match s.context.loop with
      | .executing task (.receiver stopPossible) =>
          hop s task ((Work.receiver stopPossible).executeImpl stopRequested) accepted
      | _ => s
  | _, _ => s

section Steps

variable [DecidableEq Task] (operation : Task → Operation)

def step (s : State Task) : Act Task → Option (State Task)
  | .context a accepted =>
      (IoContext.step s.context a).map fun c => { continues s a accepted with context := c }
  | .callback task report =>
      if s.context.loop = .polling ∧ task ∈ s.requests then
        some { s with
          requests := s.requests.erase task
          completed := s.completed ++
            [(task, ((operation task).callback report).signal id id)] }
      else none

end Steps

/-- `uv_loop_close`, of a loop whose handles are closed. -/
def uvLoopClose (s : State Task) : Int := if s.requests = [] then 0 else UV_EBUSY

/-- The operation of a job; `stop()` is none. -/
def operationOf : Job Task → Option Task
  | (task, .receiver _) => some task
  | (_, .stopLet) => none

namespace State

/-- The operations started so far. -/
def started (s : State Task) : List Task :=
  (s.context.history.accepted ++ s.context.history.late).filterMap operationOf

/-- Those that the loop thread has not come to yet. -/
def unexecuted (s : State Task) : List Task :=
  s.started.drop (s.context.history.completed.filterMap fun entry => operationOf entry.1).length

/-- Those that nothing more can happen to. -/
def ended (s : State Task) : List Task := s.completed.map Prod.fst ++ s.refused

end State

/-- `start()` of an operation is called once. -/
def Once (s : State Task) : Act Task → Prop
  | .context (.schedule task _ _) _ | .context (.stop _ task _) _ =>
      task ∉ (s.context.history.accepted ++ s.context.history.late).map Prod.fst
  | _ => True

/-- `stop()` is called when each operation that was started has ended, and none is started
after it. -/
def Waited (s : State Task) : Act Task → Prop
  | .context (.schedule _ _ _) _ => s.context.history.stops = 0
  | .context (.stop _ _ _) _ => s.requests = [] ∧ s.unexecuted = []
  | _ => True

/-! ## What a step of the context adds -/

/-- The job that a step enqueues. -/
def enqueued : IoContext.Act Task → List (Job Task)
  | .schedule task stopPossible _ => [(task, .receiver stopPossible)]
  | .stop _ task _ => [(task, .stopLet)]
  | _ => []

/-- The job that a step executes, with what its receiver gets. -/
def ran (c : Context Task) : IoContext.Act Task → List (Job Task × IoContext.Signal)
  | .execute stopRequested =>
      match c.loop with
      | .executing task work => [((task, work), work.executeImpl stopRequested)]
      | _ => []
  | _ => []

section History

variable [DecidableEq Task] {c c' : Context Task} {a : IoContext.Act Task}

/-- The history grows by the jobs that are enqueued and executed. -/
theorem step_history (dis : Disciplined c) (taken : IoContext.step c a = some c') :
    c'.history.accepted ++ c'.history.late =
        c.history.accepted ++ c.history.late ++ enqueued a ∧
      c'.history.completed = c.history.completed ++ ran c a := by
  have joins : ∀ (task : Task) (work : Work) (wrote : Bool),
      (IoContext.enqueue c task work wrote).history.accepted ++
        (IoContext.enqueue c task work wrote).history.late =
          c.history.accepted ++ c.history.late ++ [(task, work)] := by
    intro task work wrote
    by_cases out : c.loop = .left
    · simp [IoContext.enqueue, out]
    · simp [IoContext.enqueue, out, dis.late_of_running out]
  cases IoContext.Step.of_step taken with
  | schedule task stopPossible wrote =>
      exact ⟨joins task (.receiver stopPossible) wrote, (List.append_nil _).symm⟩
  | stop caller task wrote => exact ⟨joins task .stopLet wrote, (List.append_nil _).symm⟩
  | dequeueall dequeuing =>
      unfold IoContext.dequeueall
      split
      · exact ⟨(List.append_nil _).symm, (List.append_nil _).symm⟩
      · exact ⟨(List.append_nil _).symm, (List.append_nil _).symm⟩
  | execute task work stopRequested executing =>
      have ranThis : ran c (.execute stopRequested) =
          [((task, work), work.executeImpl stopRequested)] := by
        simp only [ran, executing]
      obtain ⟨-, -, accepted, late, completed, -⟩ :=
        IoContext.runWork_idle { c with
          loop := .polling
          history := { c.history with
            completed :=
              c.history.completed ++ [((task, work), work.executeImpl stopRequested)] } } work rfl
      rw [ranThis]
      refine ⟨?_, completed⟩
      show (IoContext.runWork _ _).history.accepted ++ (IoContext.runWork _ _).history.late = _
      rw [accepted, late]
      exact (List.append_nil _).symm
  | _ => exact ⟨(List.append_nil _).symm, (List.append_nil _).symm⟩

end History

/-! ## The ledger -/

/-- The operations that the loop thread has come to. -/
def State.executed (s : State Task) : List Task :=
  s.context.history.completed.filterMap fun entry => operationOf entry.1

/-- Where they are. -/
def State.places (s : State Task) : List Task :=
  s.completed.map Prod.fst ++ s.requests ++ s.refused

/-- Every operation that the loop thread has come to is in one place. -/
structure Ledger (s : State Task) : Prop where
  disciplined : Disciplined s.context
  ordered : ∃ ts, Ordered s.context ts
  nodup : ((s.context.history.accepted ++ s.context.history.late).map Prod.fst).Nodup
  places : s.executed.Perm s.places

section Ledger

variable [DecidableEq Task] {operation : Task → Operation} {s s' : State Task} {a : Act Task}
  {next : Task → Option Task} {execute : Task → Work}

/-- An operation behind `schedule()` goes to one of the places. -/
theorem hop_places (s : State Task) (task : Task) (signal : IoContext.Signal) (accepted : Bool) :
    (s.places ++ [task]).Perm (hop s task signal accepted).places := by
  refine List.perm_iff_count.mpr fun other => ?_
  cases signal with
  | done =>
      simp only [hop, State.places, List.map_append, List.map_cons, List.map_nil,
        List.count_append]
      omega
  | value =>
      cases accepted
      · simp only [hop, State.places, Bool.false_eq_true, if_false, List.count_append]
        omega
      · simp only [hop, State.places, if_true, List.count_append]
        omega

theorem continues_places (s : State Task) (a : IoContext.Act Task) (accepted : Bool) :
    (s.places ++ (ran s.context a).filterMap fun entry => operationOf entry.1).Perm
      (continues s a accepted).places := by
  have nothing : (s.places ++ []).Perm s.places := by rw [List.append_nil]
  cases a with
  | execute stopRequested =>
      simp only [continues, ran]
      cases s.context.loop with
      | executing task work =>
          cases work with
          | stopLet => exact nothing
          | receiver stopPossible => exact hop_places s task _ accepted
      | _ => exact nothing
  | _ => exact nothing

theorem context_step {a : IoContext.Act Task} {accepted : Bool}
    (taken : step operation s (.context a accepted) = some s') :
    ∃ c, IoContext.step s.context a = some c ∧ { continues s a accepted with context := c } = s' :=
  Option.map_eq_some_iff.mp taken

/-- The operations started so far are those that were come to and those that were not. -/
theorem Ledger.started (ledger : Ledger s) : s.started = s.executed ++ s.unexecuted := by
  obtain ⟨ts, ord⟩ := ledger.ordered
  have split : s.started = s.executed ++
      (s.context.inFlight ++ s.context.jobs ts).filterMap operationOf := by
    rw [State.started, ord.fifo, List.append_assoc, List.filterMap_append, List.filterMap_map]
    rfl
  rw [State.unexecuted, split]
  exact congrArg _ (List.drop_left ..).symm

theorem fresh_of_once {a : IoContext.Act Task} {accepted : Bool} (ledger : Ledger s)
    (once : Once s (.context a accepted)) : IoContext.FreshTasks s.context a := by
  obtain ⟨ts, ord⟩ := ledger.ordered
  have queued : ∀ task, s.context.queue.Queued task →
      task ∈ (s.context.history.accepted ++ s.context.history.late).map Prod.fst := by
    intro task there
    rw [ord.fifo, List.map_append, Context.jobs, List.map_map]
    refine List.mem_append_right _ (List.mem_map.mpr ⟨task, ?_, rfl⟩)
    exact ord.queue.queued_iff.mp there
  cases a with
  | schedule task stopPossible wrote => exact fun there => once (queued task there)
  | stop caller task wrote => exact fun there => once (queued task there)
  | _ => trivial

theorem init_ledger : Ledger (init next execute) where
  disciplined := IoContext.init_disciplined next execute
  ordered := ⟨[], IoContext.init_ordered next execute⟩
  nodup := List.nodup_nil
  places := List.Perm.nil

theorem context_ledger {a : IoContext.Act Task} {accepted : Bool} {c : Context Task}
    (ledger : Ledger s) (once : Once s (.context a accepted))
    (taken : IoContext.step s.context a = some c) :
    Ledger { continues s a accepted with context := c } := by
  obtain ⟨grown, ranNow⟩ := step_history ledger.disciplined taken
  refine ⟨IoContext.step_disciplined ledger.disciplined taken, ?ordered, ?nodup, ?places⟩
  case ordered =>
    obtain ⟨ts, ord⟩ := ledger.ordered
    obtain ⟨ts', kept, -⟩ :=
      IoContext.step_ordered ord ledger.disciplined (fresh_of_once ledger once) taken
    exact ⟨ts', kept⟩
  case nodup =>
    show ((c.history.accepted ++ c.history.late).map Prod.fst).Nodup
    rw [grown, List.map_append]
    have added : ∀ (task : Task) (work : Work),
        task ∉ (s.context.history.accepted ++ s.context.history.late).map Prod.fst →
          ((s.context.history.accepted ++ s.context.history.late).map Prod.fst ++
            [(task, work)].map Prod.fst).Nodup := by
      intro task work new
      exact List.nodup_append'.mpr ⟨ledger.nodup, List.nodup_singleton _, by simpa using new⟩
    cases a with
    | schedule task stopPossible wrote => exact added task _ once
    | stop caller task wrote => exact added task _ once
    | _ => simpa [enqueued] using ledger.nodup
  case places =>
    have executed : State.executed { continues s a accepted with context := c } =
        s.executed ++ (ran s.context a).filterMap fun entry => operationOf entry.1 := by
      show c.history.completed.filterMap _ = _
      rw [ranNow, List.filterMap_append]
      rfl
    rw [executed]
    exact (ledger.places.append_right _).trans (continues_places s a accepted)

theorem step_ledger (ledger : Ledger s) (once : Once s a)
    (taken : step operation s a = some s') : Ledger s' := by
  cases a with
  | context a accepted =>
      obtain ⟨c, moved, rfl⟩ := context_step taken
      exact context_ledger ledger once moved
  | callback task report =>
      simp only [step, Option.ite_none_right_eq_some, Option.some.injEq] at taken
      obtain ⟨⟨-, waits⟩, rfl⟩ := taken
      refine ⟨ledger.disciplined, ledger.ordered, ledger.nodup, ledger.places.trans ?_⟩
      refine List.perm_iff_count.mpr fun other => ?_
      have taken_ := List.perm_iff_count.mp (List.perm_cons_erase waits) other
      rw [List.count_cons] at taken_
      simp only [State.places, List.map_append, List.map_cons, List.map_nil, List.count_append,
        List.count_singleton]
      omega

end Ledger

/-! ## Runs -/

section Runs

variable [DecidableEq Task] {operation : Task → Operation} {s s' : State Task}
  {acts : List (Act Task)} {next : Task → Option Task} {execute : Task → Work}

theorem run_ledger (once : Along (step operation) Once (init next execute) acts)
    (reached : run (step operation) (init next execute) acts = some s) : Ledger s :=
  once.invariant (fun _ _ _ ledger once taken => step_ledger ledger once taken) init_ledger reached

theorem filterMap_sublist (jobs : List (Job Task)) :
    (jobs.filterMap operationOf).Sublist (jobs.map Prod.fst) := by
  induction jobs with
  | nil => exact List.Sublist.slnil
  | cons job rest ih =>
      obtain ⟨task, work⟩ := job
      cases work with
      | receiver stopPossible => exact ih.cons_cons task
      | stopLet => exact ih.cons task

/-- One `stop()` call, and no `::write` that fails. -/
def Wakes (s : State Task) : Act Task → Prop
  | .context a _ => IoContext.WritesSucceed s.context a ∧ IoContext.OneStop s.context a
  | .callback _ _ => True

/-- Each operation that was started has ended. -/
def Settled (s : State Task) : Prop := s.requests = [] ∧ s.unexecuted = []

theorem Settled.ended (settled : Settled s) (ledger : Ledger s) : s.started.Perm s.ended := by
  obtain ⟨none_, all⟩ := settled
  have places := ledger.places
  rw [State.places, none_, List.append_nil] at places
  rw [ledger.started, all, List.append_nil]
  exact places

/-- Nothing follows an execution of `stop()`. -/
theorem continues_of_none {a : IoContext.Act Task} {accepted : Bool}
    (none_ : (ran s.context a).filterMap (fun entry => operationOf entry.1) = []) :
    continues s a accepted = s := by
  cases a with
  | execute stopRequested =>
      simp only [ran, continues] at none_ ⊢
      cases at_ : s.context.loop with
      | executing task work =>
          cases work with
          | stopLet => rfl
          | receiver stopPossible =>
              rw [at_] at none_
              cases none_
      | _ => rfl
  | _ => rfl

theorem stops_kept {c c' : Context Task} {a : IoContext.Act Task}
    (taken : IoContext.step c a = some c') :
    (∃ caller task wrote, a = .stop caller task wrote) ∨
      c'.history.stops = c.history.stops := by
  cases IoContext.Step.of_step taken with
  | stop caller task wrote => exact .inl ⟨caller, task, wrote, rfl⟩
  | dequeueall =>
      right
      unfold IoContext.dequeueall
      split <;> rfl
  | execute task work =>
      right
      unfold IoContext.finish IoContext.runWork
      cases work with
      | receiver stopPossible => rfl
      | stopLet =>
          simp only
          split <;> rfl
  | _ => exact .inr rfl

theorem step_settled {a : Act Task} (ledger : Ledger s) (once : Once s a) (waited : Waited s a)
    (settled : s.context.history.stops ≠ 0 → Settled s)
    (taken : step operation s a = some s') (stopped : s'.context.history.stops ≠ 0) :
    Settled s' := by
  have after := step_ledger ledger once taken
  cases a with
  | callback task report =>
      simp only [step, Option.ite_none_right_eq_some, Option.some.injEq] at taken
      obtain ⟨⟨-, waits⟩, rfl⟩ := taken
      rw [(settled stopped).1] at waits
      cases waits
  | context a accepted =>
      obtain ⟨c, moved, rfl⟩ := context_step taken
      obtain ⟨grown, ranNow⟩ := step_history ledger.disciplined moved
      have before : Settled s := by
        rcases stops_kept moved with ⟨caller, task, wrote, rfl⟩ | same
        · exact waited
        · exact settled (same ▸ stopped)
      have silent : (enqueued a).filterMap operationOf = [] := by
        cases a with
        | schedule task stopPossible wrote =>
            have never : s.context.history.stops = 0 := waited
            rcases stops_kept moved with ⟨_, _, _, other⟩ | same
            · cases other
            · exact absurd (same.trans never) stopped
        | _ => rfl
      -- the operations started are those executed, before and after
      have started : State.started { continues s a accepted with context := c } =
          s.executed := by
        show (c.history.accepted ++ c.history.late).filterMap operationOf = _
        rw [grown, List.filterMap_append, silent, List.append_nil]
        have all := ledger.started
        rw [before.2, List.append_nil] at all
        exact all
      have executed : State.executed { continues s a accepted with context := c } =
          s.executed ++ (ran s.context a).filterMap fun entry => operationOf entry.1 := by
        show c.history.completed.filterMap _ = _
        rw [ranNow, List.filterMap_append]
        rfl
      have split := after.started
      rw [started, executed, List.append_assoc] at split
      obtain ⟨none_, rest⟩ := List.append_eq_nil_iff.mp (List.self_eq_append_right.mp split)
      refine ⟨?_, rest⟩
      show (continues s a accepted).requests = []
      rw [continues_of_none none_]
      exact before.1

/-- The step of the context in it, if there is one. -/
def contextStep (_ : State Task) : Act Task → List (IoContext.Act Task)
  | .context a _ => [a]
  | .callback _ _ => []

theorem run_context
    (meets : Along (step operation) (fun s a => Once s a ∧ Wakes s a) (init next execute) acts)
    (reached : run (step operation) (init next execute) acts = some s) :
    ∃ acts', run IoContext.step (IoContext.init next execute) acts' = some s.context ∧
      Along IoContext.step (fun c a => IoContext.Scheduling c a ∧ IoContext.OneStop c a)
        (IoContext.init next execute) acts' := by
  have simulation : Simulation (step operation) IoContext.step contextStep
      (fun s a => Once s a ∧ Wakes s a)
      (fun c a => IoContext.Scheduling c a ∧ IoContext.OneStop c a)
      (fun s c => Ledger s ∧ s.context = c) := by
    rintro s c a s' ⟨ledger, rfl⟩ ⟨once, wakes⟩ taken
    have after := step_ledger ledger once taken
    cases a with
    | context a accepted =>
        obtain ⟨c, moved, rfl⟩ := context_step taken
        refine ⟨c, ?_, ?_, after, rfl⟩
        · exact run_cons_eq_some.mpr ⟨c, moved, rfl⟩
        · exact along_cons ⟨⟨fresh_of_once ledger once, wakes.1⟩, wakes.2⟩ moved along_nil
    | callback task report =>
        simp only [step, Option.ite_none_right_eq_some, Option.some.injEq] at taken
        obtain ⟨-, rfl⟩ := taken
        exact ⟨_, rfl, along_nil, after, rfl⟩
  obtain ⟨c, moved, along, -, rfl⟩ := simulation.run meets ⟨init_ledger, rfl⟩ reached
  exact ⟨_, moved, along⟩

theorem run_settled
    (meets : Along (step operation) (fun s a => Once s a ∧ Waited s a) (init next execute) acts)
    (reached : run (step operation) (init next execute) acts = some s)
    (called : s.context.history.stops ≠ 0) : Settled s := by
  refine (meets.invariant (I := fun s => Ledger s ∧ (s.context.history.stops ≠ 0 → Settled s))
    ?_ ⟨init_ledger, fun called => absurd rfl called⟩ reached).2 called
  rintro s a s' ⟨ledger, settled⟩ ⟨once, waited⟩ taken
  exact ⟨step_ledger ledger once taken, step_settled ledger once waited settled taken⟩

/-- **A `stop()` that waited leaves nothing behind.**  Suppose `stop()` is called once, when
each operation that was started has ended, and none is started after it, as where every
one is waited for.  From the call on nothing is outstanding, so that `uv_loop_close`
succeeds once the loop thread has left, which it does when it rests; and before the call
each operation has ended when the loop thread rests and the requests are served. -/
theorem waited_for_completes
    (meets : Along (step operation) (fun s a => (Once s a ∧ Wakes s a) ∧ Waited s a)
      (init next execute) acts)
    (reached : run (step operation) (init next execute) acts = some s) :
    (s.context.history.stops ≠ 0 → s.started.Perm s.ended ∧ uvLoopClose s = 0 ∧
      (Rests s.context → s.context.loop = .left)) ∧
    (s.context.history.stops = 0 → Rests s.context → s.requests = [] →
      s.started.Perm s.ended) := by
  have ledger := run_ledger (meets.mono fun _ _ all => all.1.1) reached
  obtain ⟨acts', moved, along⟩ := run_context (meets.mono fun _ _ all => all.1) reached
  refine ⟨fun called => ?_, fun never rests served => ?_⟩
  · have settled := run_settled (meets.mono fun _ _ all => ⟨all.1.1, all.2⟩) reached called
    exact ⟨settled.ended ledger, if_pos settled.1, fun rests => (rests.left along moved called).1⟩
  · obtain ⟨dis, ts, ord, count⟩ :=
      IoContext.run_counted (along.mono fun _ _ both => both.1) moved
    cases IoContext.run_stopCall along moved with
    | uncalled never free none_ active =>
        obtain ⟨polling, -, completed⟩ := rests.completed dis ord count active
        have executed : s.executed = s.started := by
          rw [State.executed, State.started, dis.late_of_running (by simp [polling]),
            List.append_nil, ← completed, List.filterMap_map]
          rfl
        have all := ledger.started
        rw [executed] at all
        exact Settled.ended ⟨served, List.self_eq_append_right.mp all⟩ ledger
    | waiting called => cases called.symm.trans never
    | returned called => cases called.symm.trans never

/-- A Read that the destructor's caller waited for. -/
def waitedFor : List (Act Nat) :=
  [.context (.schedule 1 false true) true, .context .readByte true, .context .dequeueall true,
    .context (.execute false) true, .callback 1 ⟨5, 0, 0⟩,
    .context (.stop .destructor 0 true) true, .context .readByte true,
    .context .dequeueall true, .context (.execute false) true, .context .closeCallback true,
    .context .leave true]

theorem waited_for_completes_read :
    ∃ s, run (step fun _ => Operation.readOp) (init (fun _ => none) fun _ => .receiver false)
        waitedFor = some s ∧
      s.completed = [(1, .value (.count 5))] ∧ s.started.Perm s.ended ∧ uvLoopClose s = 0 ∧
      (Rests s.context → s.context.loop = .left) := by
  have meets : Along (step fun _ => Operation.readOp)
      (fun s a => (Once s a ∧ Wakes s a) ∧ Waited s a)
      (init (fun _ => none) fun _ => .receiver false) waitedFor := by
    have free : ∀ {s : State Nat} {a : Act Nat}, Once s a = True → Wakes s a →
        Waited s a = True → (Once s a ∧ Wakes s a) ∧ Waited s a :=
      fun once wakes waited => ⟨⟨once ▸ trivial, wakes⟩, waited ▸ trivial⟩
    refine along_cons ⟨⟨?_, rfl, trivial⟩, rfl⟩ rfl (along_cons (free rfl ⟨trivial, trivial⟩ rfl)
      rfl (along_cons (free rfl ⟨trivial, trivial⟩ rfl) rfl (along_cons
        (free rfl ⟨trivial, trivial⟩ rfl) rfl (along_cons (free rfl trivial rfl) rfl (along_cons
          ⟨⟨?_, rfl, rfl⟩, rfl, rfl⟩ rfl (along_cons (free rfl ⟨trivial, trivial⟩ rfl) rfl
            (along_cons (free rfl ⟨trivial, trivial⟩ rfl) rfl (along_cons
              (free rfl ⟨trivial, trivial⟩ rfl) rfl (along_cons (free rfl ⟨trivial, trivial⟩ rfl)
                rfl (along_cons (free rfl ⟨trivial, trivial⟩ rfl) rfl trivial))))))))))
    · simp [Once, init, IoContext.init]
    · show (0 : Nat) ∉ [1]
      decide
  obtain ⟨ended, closes, leaves⟩ := (waited_for_completes meets rfl).1 (by decide)
  exact ⟨_, rfl, rfl, ended, closes, leaves⟩

end Runs

end PatBase.Runtime.ContextRequests
