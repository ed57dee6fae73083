/-
# PatBase.Runtime.IoContextShutdown -- what `stop()` leaves behind

`stop()` is itself a queued task: it closes the read end of the wake-up pipe, and
the callback of that close tells the loop to stop.  Nothing reads the pipe from
then on, so what is enqueued behind the stop task is never executed.

* `completed_iff_nothing_behind`: when the loop thread has left `run()`, every job
  it accepted has completed exactly when none was scheduled behind the stop task.
* `stop_completes_iff_open`: over a run, no `stop()` call waits on a loop that has
  left (and no byte is written to a closed pipe) exactly when every enqueue found
  the read end open; a `stop()` call after one that returned never returns.

`abandoned_task` and `second_stop_waits` are the shortest runs that fail.
-/
import PatBase.Runtime.IoContext

namespace PatBase.Runtime.IoContext

open PatBase.Lib.Machine PatBase.Lib.IntrusiveList

set_option autoImplicit false
set_option linter.unusedSectionVars false

universe u

variable {Task : Type u}

/-! ## Accepted tasks at shutdown -/

/-- `stop()` is called once. -/
def OneStop (c : Context Task) : Act Task → Prop
  | .stop _ _ _ => c.history.stops = 0
  | _ => True

/-- A task is scheduled before the `stop()` call, or after the loop thread left. -/
def NothingBehindStop (c : Context Task) : Act Task → Prop
  | .schedule _ _ _ => c.history.stops = 0 ∨ c.loop = .left
  | _ => True

/-- Where the one stop task stands among the accepted jobs, after the run `acts`
from `start`.  Once the read end is closed, it is the last one completed. -/
inductive StopPlace (step : Context Task → Act Task → Option (Context Task))
    (start : Context Task) (acts : List (Act Task)) (c : Context Task) : Prop where
  | uncalled (never : c.history.stops = 0) (active : c.readPipe = .active)
      (plain : ∀ job ∈ c.history.accepted, job.2 ≠ .stopLet)
      (meets : Along step NothingBehindStop start acts)
  | placed (called : c.history.stops = 1) (before : List (Job Task)) (task : Task)
      (behind : List (Job Task))
      (split : c.history.accepted = before ++ (task, .stopLet) :: behind)
      (plainBefore : ∀ job ∈ before, job.2 ≠ .stopLet)
      (plainBehind : ∀ job ∈ behind, job.2 ≠ .stopLet)
      (meets_iff : Along step NothingBehindStop start acts ↔ behind = [])
      (done : c.readPipe ≠ .active →
        c.history.completed.map Prod.fst = before ++ [(task, .stopLet)])

section Accepted

variable [DecidableEq Task] {start c c' : Context Task} {acts : List (Act Task)} {a : Act Task}

/-- Executing the stop task closes the read end. -/
theorem finish_stopLet (active : c.readPipe = .active) (task : Task) (stopRequested : Bool) :
    finish c (task, .stopLet) stopRequested = { c with
      loop := .polling
      readPipe := .closing
      history := { c.history with
        completed := c.history.completed ++ [((task, .stopLet), .value)] } } := by
  simp only [finish, runWork, active, if_true, Work.executeImpl]

/-- A step that is no enqueue and no execution keeps the place of the stop task. -/
theorem StopPlace.congr (place : StopPlace step start acts c)
    (reached : run step start acts = some c) (other : NothingBehindStop c a)
    (stops : c'.history.stops = c.history.stops)
    (accepted : c'.history.accepted = c.history.accepted)
    (completed : c'.history.completed = c.history.completed)
    (active : c'.readPipe = .active ↔ c.readPipe = .active) :
    StopPlace step start (acts ++ [a]) c' := by
  cases place with
  | uncalled never wasActive plain meets =>
      exact .uncalled (stops.trans never) (active.mpr wasActive) (accepted ▸ plain)
        ((along_snoc reached).mpr ⟨meets, other⟩)
  | placed called before task behind split plainBefore plainBehind meets_iff done =>
      refine .placed (stops.trans called) before task behind (accepted.trans split) plainBefore
        plainBehind ?_ fun closed => ?_
      · rw [along_snoc reached, ← meets_iff]
        exact and_iff_left other
      · rw [completed]
        exact done fun wasActive => closed (active.mpr wasActive)

theorem schedule_stopPlace (place : StopPlace step start acts c)
    (reached : run step start acts = some c) (task : Task) (stopPossible wrote : Bool) :
    StopPlace step start (acts ++ [.schedule task stopPossible wrote])
      (enqueue c task (.receiver stopPossible) wrote) := by
  by_cases out : c.loop = .left
  · exact place.congr reached (.inr out) rfl (by simp [enqueue, out]) rfl Iff.rfl
  have appended : (enqueue c task (.receiver stopPossible) wrote).history.accepted =
      c.history.accepted ++ [(task, .receiver stopPossible)] := by simp [enqueue, out]
  cases place with
  | uncalled never active plain meets =>
      refine .uncalled never active ?_ ((along_snoc reached).mpr ⟨meets, .inl never⟩)
      rw [appended]
      intro job member
      rcases List.mem_append.mp member with old | new
      · exact plain job old
      · simp [List.mem_singleton.mp new]
  | placed called before stopTask behind split plainBefore plainBehind meets_iff done =>
      refine .placed called before stopTask (behind ++ [(task, .receiver stopPossible)]) ?_
        plainBefore ?_ ?_ done
      · rw [appended, split, List.append_assoc, List.cons_append]
      · intro job member
        rcases List.mem_append.mp member with old | new
        · exact plainBehind job old
        · simp [List.mem_singleton.mp new]
      · rw [along_snoc reached]
        constructor
        · rintro ⟨-, before_ | left⟩
          · rw [called] at before_
            cases before_
          · exact absurd left out
        · intro none_
          simp at none_

theorem stop_stopPlace (place : StopPlace step start acts c) (dis : Disciplined c)
    (reached : run step start acts = some c) (first : c.history.stops = 0) (caller : Caller)
    (task : Task) (wrote : Bool) :
    StopPlace step start (acts ++ [.stop caller task wrote]) (beginStop c caller task wrote) := by
  cases place with
  | placed called => rw [called] at first; cases first
  | uncalled never active plain meets =>
      have running : c.loop ≠ .left := by
        intro left
        cases (dis.closed_of_stop (dis.stop_of_left left)).symm.trans active
      refine .placed ?_ c.history.accepted task [] ?_ plain nofun ?_ fun closed => absurd active closed
      · show c.history.stops + 1 = 1
        rw [never]
      · simp [beginStop, enqueue, running]
      · rw [along_snoc reached]
        exact ⟨fun _ => rfl, fun _ => ⟨meets, trivial⟩⟩

/-- Executing a job keeps the place; executing the stop task completes everything
before it, since the queue is FIFO. -/
theorem execute_stopPlace {ts : List Task} {task : Task} {work : Work}
    (place : StopPlace step start acts c) (dis : Disciplined c) (ord : Ordered c ts)
    (reached : run step start acts = some c) (executing : c.loop = .executing task work)
    (stopRequested : Bool) :
    StopPlace step start (acts ++ [.execute stopRequested]) (finish c (task, work) stopRequested) := by
  obtain ⟨active, early, -⟩ := dis.of_executing executing
  have fifo := ord.fifo
  have running : c.inFlight = [(task, work)] := by simp only [Context.inFlight, executing]
  rw [early, List.append_nil, running, List.append_assoc, List.singleton_append] at fifo
  cases work with
  | receiver stopPossible =>
      have same : (finish c (task, .receiver stopPossible) stopRequested).readPipe = c.readPipe := rfl
      cases place with
      | uncalled never _ plain meets =>
          exact .uncalled never active plain ((along_snoc reached).mpr ⟨meets, trivial⟩)
      | placed called before stopTask behind split plainBefore plainBehind meets_iff done =>
          refine .placed called before stopTask behind split plainBefore plainBehind ?_
            fun closed => absurd active (same ▸ closed)
          rw [along_snoc reached, ← meets_iff]
          exact and_iff_left trivial
  | stopLet =>
      rw [finish_stopLet active]
      cases place with
      | uncalled never _ plain meets =>
          refine absurd rfl (plain (task, .stopLet) ?_)
          rw [fifo]
          exact List.mem_append_right _ List.mem_cons_self
      | placed called before stopTask behind split plainBefore plainBehind meets_iff done =>
          have parts := split.symm.trans fifo
          rw [List.append_cons_inj_of_notMem (fun member => plainBefore _ member rfl)
            (fun member => plainBehind _ member rfl)] at parts
          obtain ⟨all, sameTask, -⟩ := parts
          refine .placed called before stopTask behind split plainBefore plainBehind ?_ fun _ => ?_
          · rw [along_snoc reached, ← meets_iff]
            exact and_iff_left trivial
          · rw [List.map_append, all, sameTask]
            rfl

theorem step_stopPlace {ts : List Task} (place : StopPlace step start acts c)
    (dis : Disciplined c) (ord : Ordered c ts) (reached : run step start acts = some c)
    (once : OneStop c a) (taken : step c a = some c') :
    StopPlace step start (acts ++ [a]) c' := by
  cases Step.of_step taken with
  | schedule task stopPossible wrote =>
      exact schedule_stopPlace place reached task stopPossible wrote
  | stop caller task wrote => exact stop_stopPlace place dis reached once caller task wrote
  | readByte => exact place.congr reached trivial rfl rfl rfl Iff.rfl
  | wake => exact place.congr reached trivial rfl rfl rfl Iff.rfl
  | dequeueall =>
      unfold dequeueall
      split
      · exact place.congr reached trivial rfl rfl rfl Iff.rfl
      · exact place.congr reached trivial rfl rfl rfl Iff.rfl
  | execute task work stopRequested executing =>
      exact execute_stopPlace place dis ord reached executing stopRequested
  | closeCallback polling closing =>
      refine place.congr reached trivial rfl rfl rfl ⟨fun active => ?_, fun active => ?_⟩
      · cases active
      · cases closing.symm.trans active
  | leave => exact place.congr reached trivial rfl rfl rfl Iff.rfl

variable {next : Task → Option Task} {execute : Task → Work}

theorem run_stopPlace
    (meets : Along step (fun c a => FreshTasks c a ∧ OneStop c a) (init next execute) acts)
    (reached : run step (init next execute) acts = some c) :
    StopPlace step (init next execute) acts c := by
  induction acts using List.reverseRecOn generalizing c with
  | nil =>
      cases reached
      exact .uncalled rfl rfl nofun trivial
  | append_singleton earlier a ih =>
      obtain ⟨before, prior, taken⟩ := run_snoc_eq_some.mp reached
      obtain ⟨meetsBefore, -, once⟩ := (along_snoc prior).mp meets
      obtain ⟨dis, ts, ord⟩ := run_ordered (meetsBefore.mono fun _ _ both => both.1) prior
      exact step_stopPlace (ih meetsBefore prior) dis ord prior once taken

/-- **Which accepted tasks are abandoned**: when `run()` has returned, every accepted
job has completed -- and the queue is empty, if nothing came later -- exactly when
nothing was scheduled behind the stop task. -/
theorem completed_iff_nothing_behind
    (meets : Along step (fun c a => FreshTasks c a ∧ OneStop c a) (init next execute) acts)
    (reached : run step (init next execute) acts = some c) (left : c.loop = .left) :
    (c.history.completed.map Prod.fst = c.history.accepted ↔
      Along step NothingBehindStop (init next execute) acts) ∧
    (c.history.late = [] →
      (c.queue.head = none ↔ Along step NothingBehindStop (init next execute) acts)) := by
  obtain ⟨dis, ts, ord⟩ := run_ordered (meets.mono fun _ _ both => both.1) reached
  have closed := dis.closed_of_stop (dis.stop_of_left left)
  have idle : c.inFlight = [] := by simp only [Context.inFlight, left]
  have fifo := ord.fifo
  rw [idle, List.append_nil] at fifo
  have all : c.history.completed.map Prod.fst = c.history.accepted ↔
      Along step NothingBehindStop (init next execute) acts := by
    cases run_stopPlace meets reached with
    | uncalled never active plain meets => cases closed.symm.trans active
    | placed called before task behind split plainBefore plainBehind meets_iff done =>
        rw [meets_iff, split, done (by simp [closed])]
        simp
  refine ⟨all, fun noneLate => ?_⟩
  rw [noneLate, List.append_nil] at fifo
  rw [← all, ord.queue.head_eq, fifo]
  cases ts with
  | nil => simp [Context.jobs]
  | cons t rest => simp [Context.jobs]

/-- A stop task alone: everything accepted completes. -/
theorem completed_iff_nothing_behind_stop :
    ∃ c, run step (init (fun _ : Nat => none) fun _ => .receiver false)
        [.schedule 1 false true, .stop .user 0 true, .readByte, .dequeueall, .execute false,
          .readByte, .dequeueall, .execute false, .closeCallback, .leave] = some c ∧
      (c.history.completed.map Prod.fst = c.history.accepted ↔
        Along step NothingBehindStop (init (fun _ : Nat => none) fun _ => .receiver false)
          [.schedule 1 false true, .stop .user 0 true, .readByte, .dequeueall, .execute false,
            .readByte, .dequeueall, .execute false, .closeCallback, .leave]) := by
  have meets : Along step (fun c a => FreshTasks c a ∧ OneStop c a)
      (init (fun _ : Nat => none) fun _ => .receiver false)
      [.schedule 1 false true, .stop .user 0 true, .readByte, .dequeueall, .execute false,
        .readByte, .dequeueall, .execute false, .closeCallback, .leave] := by
    refine along_cons ⟨?_, trivial⟩ rfl (along_cons ⟨?_, rfl⟩ rfl ?_)
    · exact not_reaches_of_ends (k := 0) rfl nofun
    · exact not_reaches_of_ends (k := 1) rfl (by decide)
    · exact along_cons ⟨trivial, trivial⟩ rfl (along_cons ⟨trivial, trivial⟩ rfl
        (along_cons ⟨trivial, trivial⟩ rfl (along_cons ⟨trivial, trivial⟩ rfl
          (along_cons ⟨trivial, trivial⟩ rfl (along_cons ⟨trivial, trivial⟩ rfl
            (along_cons ⟨trivial, trivial⟩ rfl (along_cons ⟨trivial, trivial⟩ rfl trivial)))))))
  exact ⟨_, rfl, (completed_iff_nothing_behind meets rfl rfl).1⟩

/-- A task scheduled right behind the stop task is accepted and never executed. -/
theorem abandoned_task :
    ∃ c, run step (init (fun _ : Nat => none) fun _ => .receiver false)
        [.stop .user 0 true, .schedule 1 false true, .readByte, .dequeueall, .execute false,
          .closeCallback, .leave] = some c ∧
      c.loop = .left ∧ c.history.late = [] ∧
      c.history.accepted = [(0, .stopLet), (1, .receiver false)] ∧
      c.history.completed.map Prod.fst = [(0, .stopLet)] ∧ c.queue.head = some 1 :=
  ⟨_, rfl, rfl, rfl, rfl, rfl, rfl⟩

end Accepted

/-! ## `stop()` after `stop()` -/

/-- An enqueue finds the read end of the pipe open. -/
def WhileOpen (c : Context Task) : Act Task → Prop
  | .schedule _ _ _ => c.readPipe = .active
  | .stop _ _ _ => c.readPipe = .active
  | _ => True

/-- No `stop()` call waits for a loop thread that has left, and nothing was written
to a pipe without a reader. -/
def NoStrandedStop (c : Context Task) : Prop :=
  ¬ (c.loop = .left ∧ c.waiting ≠ none) ∧ c.history.lateWrites = 0

section Stops

variable [DecidableEq Task] {start c c' : Context Task} {acts : List (Act Task)} {a : Act Task}
  {next : Task → Option Task} {execute : Task → Work}

/-- Each enqueue that does not find the read end open is one late write. -/
theorem step_lateWrites (dis : Disciplined c) (taken : step c a = some c') :
    c'.history.lateWrites = 0 ↔ c.history.lateWrites = 0 ∧ WhileOpen c a := by
  have enqueued : ∀ task work wrote, (enqueue c task work wrote).history.lateWrites = 0 ↔
      c.history.lateWrites = 0 ∧ c.readPipe = .active := by
    intro task work wrote
    by_cases active : c.readPipe = .active
    · simp [enqueue, active]
    · simp [enqueue, active]
  cases Step.of_step taken with
  | schedule task stopPossible wrote => exact enqueued task (.receiver stopPossible) wrote
  | stop caller task wrote => exact enqueued task .stopLet wrote
  | dequeueall =>
      unfold dequeueall
      split
      · exact (and_iff_left trivial).symm
      · exact (and_iff_left trivial).symm
  | execute task work stopRequested executing =>
      cases work with
      | receiver stopPossible => exact (and_iff_left trivial).symm
      | stopLet =>
          rw [finish_stopLet (dis.of_executing executing).1]
          exact (and_iff_left trivial).symm
  | _ => exact (and_iff_left trivial).symm

/-- Who waits, after a step: a `stop()` call starts to wait, the close callback ends
the wait, and no other step changes it. -/
theorem step_waiting (dis : Disciplined c) (taken : step c a = some c') :
    (∃ caller task wrote, a = .stop caller task wrote ∧ c.waiting = none ∧
      c'.waiting = some task ∧ c'.stop = c.stop ∧ c'.readPipe = c.readPipe ∧
      c'.history.returned = c.history.returned) ∨
    (c.readPipe = .closing ∧ c'.waiting = none ∧ c'.readPipe = .closed) ∨
    (c'.waiting = c.waiting ∧ c'.stop = c.stop ∧
      c'.history.returned = c.history.returned ∧
      (c.readPipe = .closed → c'.readPipe = .closed)) := by
  cases Step.of_step taken with
  | stop caller task wrote free =>
      exact .inl ⟨caller, task, wrote, rfl, free, rfl, rfl, rfl, rfl⟩
  | dequeueall =>
      unfold dequeueall
      split
      · exact .inr (.inr ⟨rfl, rfl, rfl, id⟩)
      · exact .inr (.inr ⟨rfl, rfl, rfl, id⟩)
  | execute task work stopRequested executing =>
      cases work with
      | receiver stopPossible => exact .inr (.inr ⟨rfl, rfl, rfl, id⟩)
      | stopLet =>
          obtain ⟨active, -⟩ := dis.of_executing executing
          rw [finish_stopLet active]
          exact .inr (.inr ⟨rfl, rfl, rfl, fun closed => by cases active.symm.trans closed⟩)
  | closeCallback polling closing => exact .inr (.inl ⟨closing, rfl, rfl⟩)
  | _ => exact .inr (.inr ⟨rfl, rfl, rfl, id⟩)

/-- While enqueues find the read end open, a waiting `stop()` call has its close
callback still to come. -/
theorem step_attended {a : Act Task} (dis : Disciplined c)
    (attended : c.waiting ≠ none → c.stop = false) (open_ : WhileOpen c a)
    (taken : step c a = some c') : c'.waiting ≠ none → c'.stop = false := by
  intro waits
  rcases step_waiting dis taken with ⟨caller, task, wrote, rfl, -, -, stop, -⟩ | ⟨-, none_, -⟩ |
    ⟨waiting, stop, -⟩
  · cases stopped : c'.stop with
    | false => rfl
    | true => cases (dis.closed_of_stop (stop ▸ stopped)).symm.trans open_
  · exact absurd none_ waits
  · rw [stop]
    exact attended (waiting ▸ waits)

/-- Nothing completes a `stop()` call made after the read end was closed. -/
theorem step_stranded {task : Task} (dis : Disciplined c)
    (stranded : c.readPipe = .closed ∧ c.waiting = some task) (taken : step c a = some c') :
    c'.readPipe = .closed ∧ c'.waiting = some task := by
  obtain ⟨closed, waits⟩ := stranded
  rcases step_waiting dis taken with ⟨-, -, -, -, free, -⟩ | ⟨closing, -⟩ | ⟨waiting, -, -, kept⟩
  · cases waits.symm.trans free
  · cases closed.symm.trans closing
  · exact ⟨kept closed, waiting.trans waits⟩

theorem run_closed_of_returned (reached : run step (init next execute) acts = some c)
    (returned : 0 < c.history.returned) : c.readPipe = .closed := by
  refine run_history (P := fun _ c => 0 < c.history.returned → c.readPipe = .closed)
    (fun none_ => absurd none_ (Nat.lt_irrefl 0)) ?_ reached returned
  intro as s a s' prior closed taken returned
  rcases step_waiting (run_disciplined prior) taken with
    ⟨-, -, -, -, -, -, -, pipe, same⟩ | ⟨-, -, closed'⟩ | ⟨-, -, same, kept⟩
  · rw [pipe]
    exact closed (same ▸ returned)
  · exact closed'
  · exact kept (closed (same ▸ returned))

theorem run_lateWrites (reached : run step (init next execute) acts = some c) :
    c.history.lateWrites = 0 ↔ Along step WhileOpen (init next execute) acts := by
  refine run_history
    (P := fun as c => c.history.lateWrites = 0 ↔ Along step WhileOpen (init next execute) as)
    ⟨fun _ => trivial, fun _ => rfl⟩ ?_ reached
  intro as s a s' prior earlier taken
  rw [step_lateWrites (run_disciplined prior) taken, earlier, along_snoc prior]

/-- **When `stop()` completes**: no call is stranded in any state of a run exactly
when every enqueue of the run found the read end of the pipe open.  So only the
first call completes: one made after a call has returned waits for ever, its byte
written to a pipe without a reader. -/
theorem stop_completes_iff_open (reached : run step (init next execute) acts = some c) :
    ((∀ d, Visits step (init next execute) acts d → NoStrandedStop d) ↔
      Along step WhileOpen (init next execute) acts) ∧
    (0 < c.history.returned → ∀ caller task wrote more d,
      run step c (.stop caller task wrote :: more) = some d →
        d.waiting = some task ∧ d.history.lateWrites ≠ 0) := by
  refine ⟨⟨fun safe => ?_, fun open_ d visited => ?_⟩, ?_⟩
  · exact (run_lateWrites reached).mp (safe c (visits_last reached)).2
  · have attended : Disciplined d ∧ (d.waiting ≠ none → d.stop = false) := by
      refine open_.invariant_visited
        (I := fun c => Disciplined c ∧ (c.waiting ≠ none → c.stop = false)) ?_
        ⟨init_disciplined next execute, fun waits => absurd rfl waits⟩ visited
      rintro s a s' ⟨dis, attended⟩ openStep taken
      exact ⟨step_disciplined dis taken, step_attended dis attended openStep taken⟩
    obtain ⟨before, after, rfl, here⟩ := visited
    refine ⟨fun ⟨left, waits⟩ => ?_, (run_lateWrites here).mpr open_.append_left⟩
    cases (attended.2 waits).symm.trans (attended.1.stop_of_left left)
  · intro returned caller task wrote more d again
    have closed := run_closed_of_returned reached returned
    have dis := run_disciplined reached
    obtain ⟨s, first, rest⟩ := run_cons_eq_some.mp again
    have waits : s.readPipe = .closed ∧ s.waiting = some task := by
      simp only [step, Option.ite_none_right_eq_some, Option.some.injEq] at first
      obtain ⟨-, rfl⟩ := first
      exact ⟨closed, rfl⟩
    have whole : run step (init next execute) (acts ++ .stop caller task wrote :: more) = some d :=
      run_append_eq_some.mpr ⟨c, reached, again⟩
    constructor
    · refine (run_invariant (I := fun d => Disciplined d ∧ d.readPipe = .closed ∧
        d.waiting = some task) ?_ ⟨step_disciplined dis first, waits⟩ rest).2.2
      rintro u a v ⟨disU, stranded⟩ taken
      exact ⟨step_disciplined disU taken, step_stranded disU stranded taken⟩
    · intro noWrite
      have active := ((run_lateWrites whole).mp noWrite).append_right reached
      cases closed.symm.trans active.1

/-- One `stop()` call and the loop thread leaves. -/
theorem stop_completes_iff_open_once :
    (∀ d, Visits step (init (fun _ : Nat => none) fun _ => .receiver false)
        [.stop .user 0 true, .readByte, .dequeueall, .execute false, .closeCallback, .leave] d →
        NoStrandedStop d) ↔
      Along step WhileOpen (init (fun _ : Nat => none) fun _ => .receiver false)
        [.stop .user 0 true, .readByte, .dequeueall, .execute false, .closeCallback, .leave] :=
  (stop_completes_iff_open rfl).1

/-- `stop()`, then the destructor: its own call waits for a loop thread that left. -/
theorem second_stop_waits :
    ∃ c, run step (init (fun _ : Nat => none) fun _ => .receiver false)
        [.stop .user 0 true, .readByte, .dequeueall, .execute false, .closeCallback, .leave,
          .stop .destructor 1 false] = some c ∧
      c.loop = .left ∧ c.waiting = some 1 ∧ c.history.returned = 1 ∧ ¬ NoStrandedStop c :=
  ⟨_, rfl, rfl, rfl, rfl, fun safe => safe.1 ⟨rfl, nofun⟩⟩

end Stops

end PatBase.Runtime.IoContext
