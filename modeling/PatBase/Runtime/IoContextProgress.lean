/-
# PatBase.Runtime.IoContextProgress -- `stop()` and the destructor come to an end

What the loop thread of `IoContext` does is bounded by what is enqueued: three steps for
each enqueue, the close callback of the pipe and leaving `run()` (`Context.budget`).  So
it comes to rest, and the question is where.

`loop_comes_to_rest`: as long as no `::write` fails and `stop()` is called once, it
rests in `uv_run` with everything completed, or, if `stop()` was called, outside `run()`
with the call returned.  The `join` of the destructor, whose own `stop()` is that call,
therefore returns.
-/
import PatBase.Runtime.IoContextShutdown

namespace PatBase.Runtime.IoContext

open PatBase.Lib.Machine PatBase.Lib.IntrusiveList

set_option autoImplicit false
set_option linter.unusedSectionVars false

universe u

variable {Task : Type u}

/-! ## The steps of the loop thread -/

/-- The steps by which the loop thread gets on; a `read_cb` without a byte is none. -/
def Act.ofLoop : Act Task → Bool
  | .readByte => true
  | .dequeueall => true
  | .execute _ => true
  | .closeCallback => true
  | .leave => true
  | _ => false

def Act.enqueues : Act Task → Bool
  | .schedule _ _ _ => true
  | .stop _ _ _ => true
  | _ => false

/-- The steps that the loop thread can still take before it reads another byte. -/
def Loop.ahead : Loop Task → Nat
  | .polling => 0
  | .dequeuing => 2
  | .executing _ _ => 1
  | .left => 0

/-- The steps it can still take to leave: the close callback, and out of the loop. -/
def Context.toLeave (c : Context Task) : Nat :=
  match c.loop with
  | .left => 0
  | _ => if c.readPipe = .closed then 1 else 2

/-- The most steps that the loop thread can still take if nothing more is enqueued. -/
def Context.budget (c : Context Task) : Nat := 3 * c.pipe + c.loop.ahead + c.toLeave

/-- The loop thread waits in `uv_run`, or has left. -/
def Rests [DecidableEq Task] (c : Context Task) : Prop :=
  ∀ a : Act Task, a.ofLoop = true → step c a = none

section Steps

variable [DecidableEq Task] {c c' : Context Task} {a : Act Task} {ts : List Task}

theorem toLeave_of_active (active : c.readPipe = .active) (running : c.loop ≠ .left) :
    c.toLeave = 2 := by
  unfold Context.toLeave
  split
  · contradiction
  · simp [active]

/-- The budget while the read end is open. -/
theorem budget_of_active (active : c.readPipe = .active) (running : c.loop ≠ .left) :
    c.budget = 3 * c.pipe + c.loop.ahead + 2 := by
  rw [Context.budget, toLeave_of_active active running]

theorem enqueue_budget (task : Task) (work : Work) (wrote : Bool) :
    (enqueue c task work wrote).budget ≤ c.budget + 3 := by
  have pipe : (enqueue c task work wrote).pipe ≤ c.pipe + 1 := by
    simp only [enqueue]
    split <;> omega
  have leave : (enqueue c task work wrote).toLeave = c.toLeave := rfl
  show 3 * (enqueue c task work wrote).pipe + c.loop.ahead + _ ≤ _
  rw [leave, Context.budget]
  omega

/-- A step of the loop thread is paid for by an enqueue before it, or is one of the two
by which it leaves. -/
theorem step_budget (dis : Disciplined c) (taken : step c a = some c') :
    c'.budget + a.ofLoop.toNat ≤ c.budget + 3 * a.enqueues.toNat := by
  cases Step.of_step taken with
  | schedule task stopPossible wrote => exact enqueue_budget task (.receiver stopPossible) wrote
  | stop caller task wrote => exact enqueue_budget task .stopLet wrote
  | readByte polling active byte =>
      have after : Context.budget { c with pipe := c.pipe - 1, loop := .dequeuing } =
          3 * (c.pipe - 1) + 2 + 2 := budget_of_active active nofun
      rw [after, budget_of_active active (by simp [polling]), polling]
      show 3 * (c.pipe - 1) + 2 + 2 + 1 ≤ 3 * c.pipe + 0 + 2 + 0
      omega
  | wake => exact Nat.le_refl _
  | dequeueall dequeuing =>
      have active := dis.active_of_busy (by simp [dequeuing]) (by simp [dequeuing])
      rw [budget_of_active active (by simp [dequeuing]), dequeuing]
      unfold dequeueall
      split
      · have after : Context.budget { c with loop := .polling } = 3 * c.pipe + 0 + 2 :=
          budget_of_active active nofun
        rw [after]
        show 3 * c.pipe + 0 + 2 + 1 ≤ 3 * c.pipe + 2 + 2 + 0
        omega
      · rename_i task queue popped
        have after : Context.budget
            { c with queue := queue, loop := .executing task (c.execute task) } =
              3 * c.pipe + 1 + 2 := budget_of_active active nofun
        rw [after]
        exact Nat.le_refl _
  | execute task work stopRequested executing =>
      obtain ⟨active, -, -⟩ := dis.of_executing executing
      rw [budget_of_active active (by simp [executing]), executing]
      cases work with
      | receiver stopPossible =>
          have after : (finish c (task, .receiver stopPossible) stopRequested).budget =
              3 * c.pipe + 0 + 2 := budget_of_active active nofun
          rw [after]
          exact Nat.le_refl _
      | stopLet =>
          rw [finish_stopLet active]
          exact Nat.le_refl _
  | closeCallback polling closing =>
      simp [Context.budget, closeDone, Context.toLeave, polling, closing, Act.ofLoop, Act.enqueues]
  | leave polling stopped =>
      have closed := dis.closed_of_stop stopped
      simp [Context.budget, Context.toLeave, polling, closed, Loop.ahead, Act.ofLoop, Act.enqueues]

/-- Where the loop thread can rest. -/
theorem Rests.cases (rests : Rests c) :
    c.loop = .left ∨ (c.loop = .polling ∧ c.readPipe ≠ .closing ∧ c.stop = false ∧
      (c.readPipe = .active → c.pipe = 0)) := by
  cases at_ : c.loop with
  | left => exact .inl rfl
  | dequeuing =>
      have dequeues := rests .dequeueall rfl
      simp [step, at_] at dequeues
  | executing task work =>
      have executes := rests (.execute false) rfl
      simp [step, at_] at executes
  | polling =>
      right
      refine ⟨rfl, fun closing => ?_, ?_, fun active => ?_⟩
      · have closes := rests .closeCallback rfl
        simp [step, at_, closing] at closes
      · have leaves := rests .leave rfl
        simpa [step, at_] using leaves
      · have reads := rests .readByte rfl
        simp only [step, at_, active, true_and, ite_eq_right_iff, reduceCtorEq, imp_false] at reads
        omega

theorem rests_of_left (left : c.loop = .left) : Rests c := by
  intro a ofLoop
  cases a with
  | schedule task stopPossible wrote => cases ofLoop
  | stop caller task wrote => cases ofLoop
  | _ => simp [step, left]

/-! ## The one `stop()` call -/

/-- How far the one `stop()` call is. -/
inductive StopCall (c : Context Task) : Prop where
  | uncalled (never : c.history.stops = 0) (free : c.waiting = none)
      (none_ : c.history.returned = 0) (active : c.readPipe = .active)
  | waiting (called : c.history.stops = 1) (none_ : c.history.returned = 0)
      (opened : c.readPipe ≠ .closed)
  | returned (called : c.history.stops = 1) (free : c.waiting = none)
      (once : c.history.returned = 1) (stopped : c.stop = true)

theorem StopCall.congr (call : StopCall c) (stops : c'.history.stops = c.history.stops)
    (waiting : c'.waiting = c.waiting) (returned : c'.history.returned = c.history.returned)
    (readPipe : c'.readPipe = c.readPipe) (stop : c'.stop = c.stop) : StopCall c' := by
  cases call with
  | uncalled never free none_ active =>
      exact .uncalled (stops.trans never) (waiting.trans free) (returned.trans none_)
        (readPipe.trans active)
  | waiting called none_ opened =>
      exact .waiting (stops.trans called) (returned.trans none_) (readPipe ▸ opened)
  | returned called free once stopped =>
      exact .returned (stops.trans called) (waiting.trans free) (returned.trans once)
        (stop.trans stopped)

/-- While the read end is open, the stop task has not been executed. -/
def Unstopped (c : Context Task) : Prop :=
  c.readPipe = .active → ∀ entry ∈ c.history.completed, entry.1.2 ≠ .stopLet

theorem step_unstopped (dis : Disciplined c) (unstopped : Unstopped c)
    (taken : step c a = some c') : Unstopped c' := by
  cases Step.of_step taken with
  | dequeueall dequeuing =>
      unfold dequeueall
      split
      · exact unstopped
      · exact unstopped
  | execute task work stopRequested executing =>
      obtain ⟨active, -, -⟩ := dis.of_executing executing
      cases work with
      | receiver stopPossible =>
          intro _ entry member
          rcases List.mem_append.mp member with earlier | last
          · exact unstopped active entry earlier
          · rw [List.mem_singleton.mp last]
            nofun
      | stopLet =>
          rw [finish_stopLet active]
          nofun
  | closeCallback => nofun
  | _ => exact unstopped

theorem step_stopCall {start : Context Task} {acts : List (Act Task)} (call : StopCall c)
    (place : StopPlace step start acts c) (dis : Disciplined c) (ord : Ordered c ts)
    (once : OneStop c a) (taken : step c a = some c') : StopCall c' := by
  cases Step.of_step taken with
  | stop caller task wrote =>
      cases call with
      | uncalled never free none_ active =>
          refine .waiting ?_ none_ ?_
          · show c.history.stops + 1 = 1
            rw [never]
          · show c.readPipe ≠ .closed
            rw [active]
            intro closed
            cases closed
      | waiting called => cases called.symm.trans once
      | returned called => cases called.symm.trans once
  | dequeueall dequeuing =>
      unfold dequeueall
      split
      · exact call.congr rfl rfl rfl rfl rfl
      · exact call.congr rfl rfl rfl rfl rfl
  | execute task work stopRequested executing =>
      obtain ⟨active, early, running⟩ := dis.of_executing executing
      cases work with
      | receiver stopPossible => exact call.congr rfl rfl rfl rfl rfl
      | stopLet =>
          rw [finish_stopLet active]
          cases call with
          | uncalled never free none_ =>
              cases place with
              | uncalled _ _ plain =>
                  have member : (task, Work.stopLet) ∈ c.history.accepted := by
                    have fifo := ord.fifo
                    rw [early, List.append_nil] at fifo
                    rw [fifo]
                    simp [Context.inFlight, executing]
                  exact absurd rfl (plain _ member)
              | placed called => cases called.symm.trans never
          | waiting called none_ =>
              refine .waiting called none_ ?_
              intro closed
              cases closed
          | returned called free once stopped => cases stopped.symm.trans running
  | closeCallback polling closing =>
      cases call with
      | uncalled never free none_ active => cases active.symm.trans closing
      | waiting called none_ =>
          refine .returned called rfl ?_ rfl
          show c.history.returned + 1 = 1
          rw [none_]
      | returned called free once stopped =>
          cases (dis.closed_of_stop stopped).symm.trans closing
  | _ => exact call.congr rfl rfl rfl rfl rfl

end Steps

/-! ## Runs -/

section Runs

variable [DecidableEq Task] {next : Task → Option Task} {execute : Task → Work}
  {acts : List (Act Task)} {c : Context Task}

theorem run_budget (reached : run step (init next execute) acts = some c) :
    acts.countP Act.ofLoop + c.budget ≤ 3 * acts.countP Act.enqueues + 2 := by
  refine run_history
    (P := fun acts c => acts.countP Act.ofLoop + c.budget ≤ 3 * acts.countP Act.enqueues + 2)
    (Nat.le_refl 2) ?_ reached
  intro before s a s' prior ih taken
  have paid := step_budget (run_disciplined prior) taken
  have loops : [a].countP Act.ofLoop = a.ofLoop.toNat := by
    cases ofLoop : a.ofLoop <;> simp [ofLoop]
  have enqueued : [a].countP Act.enqueues = a.enqueues.toNat := by
    cases enqueues : a.enqueues <;> simp [enqueues]
  rw [List.countP_append, List.countP_append, loops, enqueued]
  omega

/-- The invariants of a run whose `::write`s succeed and that calls `stop()` once. -/
theorem run_stopCall
    (meets : Along step (fun c a => Scheduling c a ∧ OneStop c a) (init next execute) acts)
    (reached : run step (init next execute) acts = some c) : StopCall c := by
  refine run_history (P := fun acts c =>
    Along step (fun c a => Scheduling c a ∧ OneStop c a) (init next execute) acts → StopCall c)
    (fun _ => .uncalled rfl rfl rfl rfl) ?_ reached meets
  intro before s a s' prior ih taken meets
  obtain ⟨meetsBefore, -, once⟩ := (along_snoc prior).mp meets
  have fresh := meetsBefore.mono fun _ _ both => And.intro both.1.1 both.2
  obtain ⟨dis, ts, ord⟩ := run_ordered (fresh.mono fun _ _ both => both.1) prior
  exact step_stopCall (ih meetsBefore) (run_stopPlace fresh prior) dis ord once taken

theorem run_unstopped (reached : run step (init next execute) acts = some c) : Unstopped c := by
  have start : Unstopped (init next execute) := by
    intro _ entry member
    cases member
  refine run_history (P := fun _ c => Unstopped c) start ?_ reached
  intro before s a s' prior unstopped taken
  exact step_unstopped (run_disciplined prior) unstopped taken

/-- With the read end open, a loop thread at rest waits for a byte and every task has run. -/
theorem Rests.completed {ts : List Task} (rests : Rests c) (dis : Disciplined c)
    (ord : Ordered c ts) (count : Counted c ts) (active : c.readPipe = .active) :
    c.loop = .polling ∧ ts = [] ∧ c.history.completed.map Prod.fst = c.history.accepted := by
  rcases rests.cases with left | ⟨polling, -, -, drained⟩
  · cases (dis.closed_of_stop (dis.stop_of_left left)).symm.trans active
  · have counted := count active
    have idle : c.pending = 0 := by simp only [Context.pending, polling]
    rw [drained active, idle] at counted
    have none_ : ts = [] := List.eq_nil_of_length_eq_zero counted
    have fifo := ord.fifo
    have still : c.inFlight = [] := by simp only [Context.inFlight, polling]
    rw [dis.late_of_running (by simp [polling]), still, none_] at fifo
    simp only [List.append_nil, Context.jobs, List.map_nil] at fifo
    exact ⟨polling, none_, fifo.symm⟩

/-- Once `stop()` was called, the loop thread rests only outside `run()`. -/
theorem Rests.left
    (meets : Along step (fun c a => Scheduling c a ∧ OneStop c a) (init next execute) acts)
    (reached : run step (init next execute) acts = some c) (rests : Rests c)
    (called : c.history.stops ≠ 0) :
    c.loop = .left ∧ c.waiting = none ∧ c.history.returned = c.history.stops := by
  obtain ⟨dis, ts, ord, count⟩ := run_counted (meets.mono fun _ _ both => both.1) reached
  cases run_stopCall meets reached with
  | uncalled never => exact absurd never called
  | waiting called none_ opened =>
      exfalso
      cases at_ : c.readPipe with
      | closed => exact opened at_
      | closing =>
          rcases rests.cases with left | ⟨-, notClosing, -⟩
          · cases (dis.closed_of_stop (dis.stop_of_left left)).symm.trans at_
          · exact notClosing at_
      | active =>
          -- the stop task was accepted, so it has run, so the read end is not open
          obtain ⟨-, -, completed⟩ := rests.completed dis ord count at_
          cases run_stopPlace (meets.mono fun _ _ both => ⟨both.1.1, both.2⟩) reached with
          | uncalled never => cases called.symm.trans never
          | placed _ before task behind split =>
              have ran : (task, Work.stopLet) ∈ c.history.completed.map Prod.fst := by
                rw [completed, split]
                exact List.mem_append_right _ List.mem_cons_self
              obtain ⟨entry, member, same⟩ := List.mem_map.mp ran
              exact run_unstopped reached at_ entry member (congrArg Prod.snd same)
  | returned called free once stopped =>
      rcases rests.cases with left | ⟨-, -, running, -⟩
      · exact ⟨left, free, once.trans called.symm⟩
      · cases stopped.symm.trans running

/-- **The loop thread comes to rest, with nothing owed.**  It takes at most three steps
for each enqueue and two more.  When it can take none, no `stop()` call waits; if there
was none, everything accepted has completed and the queue is empty; if there was one,
the loop thread has left `run()`. -/
theorem loop_comes_to_rest
    (meets : Along step (fun c a => Scheduling c a ∧ OneStop c a) (init next execute) acts)
    (reached : run step (init next execute) acts = some c) :
    acts.countP Act.ofLoop ≤ 3 * acts.countP Act.enqueues + 2 ∧
    (Rests c →
      c.waiting = none ∧ c.history.returned = c.history.stops ∧
      (c.history.stops = 0 → c.loop = .polling ∧ c.queue.head = none ∧
        c.history.completed.map Prod.fst = c.history.accepted) ∧
      (c.history.stops ≠ 0 → c.loop = .left)) := by
  have bound := run_budget reached
  refine ⟨by omega, fun rests => ?_⟩
  by_cases called : c.history.stops = 0
  · obtain ⟨dis, ts, ord, count⟩ := run_counted (meets.mono fun _ _ both => both.1) reached
    cases run_stopCall meets reached with
    | uncalled never free none_ active =>
        obtain ⟨polling, empty, completed⟩ := rests.completed dis ord count active
        refine ⟨free, none_.trans never.symm, fun _ => ⟨polling, ?_, completed⟩, ?_⟩
        · rw [ord.queue.head_eq, empty]
          rfl
        · exact fun called => absurd never called
    | waiting once => cases called.symm.trans once
    | returned once => cases called.symm.trans once
  · obtain ⟨left, free, returned⟩ := rests.left meets reached called
    exact ⟨free, returned, fun never => absurd never called, fun _ => left⟩

/-- A task, the destructor's `stop()`, and the loop thread until it has left. -/
theorem loop_comes_to_rest_destructor :
    ∃ c, run step (init (fun _ : Nat => none) fun _ => .receiver false)
        [.schedule 1 false true, .stop .destructor 0 true, .readByte, .dequeueall,
          .execute false, .readByte, .dequeueall, .execute false, .closeCallback,
          .leave] = some c ∧
      Rests c ∧ c.waiting = none ∧ c.history.returned = 1 := by
  have meets : Along step (fun c a => Scheduling c a ∧ OneStop c a)
      (init (fun _ : Nat => none) fun _ => .receiver false)
      [.schedule 1 false true, .stop .destructor 0 true, .readByte, .dequeueall,
        .execute false, .readByte, .dequeueall, .execute false, .closeCallback, .leave] := by
    refine along_cons ⟨⟨?_, rfl⟩, trivial⟩ rfl (along_cons ⟨⟨?_, rfl⟩, rfl⟩ rfl ?_)
    · exact not_reaches_of_ends (k := 0) rfl nofun
    · exact not_reaches_of_ends (k := 1) rfl (by decide)
    · exact along_cons ⟨⟨trivial, trivial⟩, trivial⟩ rfl
        (along_cons ⟨⟨trivial, trivial⟩, trivial⟩ rfl
          (along_cons ⟨⟨trivial, trivial⟩, trivial⟩ rfl
            (along_cons ⟨⟨trivial, trivial⟩, trivial⟩ rfl
              (along_cons ⟨⟨trivial, trivial⟩, trivial⟩ rfl
                (along_cons ⟨⟨trivial, trivial⟩, trivial⟩ rfl
                  (along_cons ⟨⟨trivial, trivial⟩, trivial⟩ rfl
                    (along_cons ⟨⟨trivial, trivial⟩, trivial⟩ rfl trivial)))))))
  have resting := (loop_comes_to_rest meets rfl).2
  refine ⟨_, rfl, ?_⟩
  obtain ⟨free, once, -⟩ := resting (rests_of_left rfl)
  exact ⟨rests_of_left rfl, free, once⟩

end Runs

end PatBase.Runtime.IoContext
