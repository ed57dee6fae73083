/-
# PatBase.Runtime.IoContext -- the task loop of `IOContext`

pat/runtime/io_context.{h,cc} as a machine.  Its state is the intrusive queue, the
wake-up pipe as a count of bytes, the libuv handle of the pipe's read end and the
program point of the loop thread.  `enqueue` is one mutex section, taken by any
thread (a task running on the loop thread included) between any two steps of the
loop thread; the outcome of its `::write` comes with the action.  `stop()` calls
are made one after another, the destructor's last.

`History` is read by no step.  A `Job` is a task object with the receiver it was
enqueued with: objects are reused, jobs are what must not be lost.  `Ordered` is
the invariant of every run that enqueues no object twice (`FreshTasks`), and
`scheduled_in_order` is what it says while the read end is open and no `::write`
fails.
-/
import PatBase.Lib.Machine
import PatBase.Runtime.TaskQueue

namespace PatBase.Runtime.IoContext

open PatBase.Lib.Machine

set_option autoImplicit false
set_option linter.unusedSectionVars false

universe u

/-! ## State -/

/-- What a receiver got. -/
inductive Signal where
  | value
  | done
  deriving DecidableEq, Repr

/-- The receiver behind a task's `execute_`. -/
inductive Work where
  /-- A receiver of `schedule()`; its stop token may be one that never stops. -/
  | receiver (stopPossible : Bool)
  /-- The `let` of `stop()`, which closes the read end of the pipe. -/
  | stopLet
  deriving DecidableEq, Repr

/-- `_op::type::execute_impl`; `sync_wait` gives `stopLet` a token that never stops. -/
def Work.executeImpl (work : Work) (stopRequested : Bool) : Signal :=
  match work with
  | .receiver true => if stopRequested then .done else .value
  | .receiver false => .value
  | .stopLet => .value

/-- The libuv handle `read_pipe_`.  `uv_close` closes the descriptor at once; its
callback runs later. -/
inductive ReadPipe where
  | active
  | closing
  | closed
  deriving DecidableEq, Repr

/-- Where the loop thread is. -/
inductive Loop (Task : Type u) where
  /-- In `uv_run`, outside any callback. -/
  | polling
  /-- In `read_cb` with a byte, before the lock of `dequeueall`. -/
  | dequeuing
  /-- In `task->execute()`, the mutex released. -/
  | executing (task : Task) (work : Work)
  /-- `run()` has returned. -/
  | left
  deriving DecidableEq

abbrev Job (Task : Type u) := Task × Work

structure History (Task : Type u) where
  /-- Enqueued before the loop thread left `run()`. -/
  accepted : List (Job Task)
  /-- Enqueued after. -/
  late : List (Job Task)
  completed : List (Job Task × Signal)
  /-- `stop()` calls begun, and returned. -/
  stops : Nat
  returned : Nat
  /-- Calls of `::write` after the read end was closed. -/
  lateWrites : Nat

structure Context (Task : Type u) where
  queue : TaskQueue Task
  execute : Task → Work
  stop : Bool
  pipe : Nat
  readPipe : ReadPipe
  loop : Loop Task
  /-- The operation the `stop()` call in `sync_wait` waits for. -/
  waiting : Option Task
  destroying : Bool
  history : History Task

inductive Caller where
  | user
  | destructor
  deriving DecidableEq, Repr

inductive Act (Task : Type u) where
  /-- `start()` of a `schedule()` operation, on any thread. -/
  | schedule (task : Task) (stopPossible wrote : Bool)
  | stop (caller : Caller) (task : Task) (wrote : Bool)
  /-- libuv reads one byte and calls `read_cb`. -/
  | readByte
  /-- `read_cb` with a status that is not positive. -/
  | wake
  | dequeueall
  /-- `task->execute()` runs to its end. -/
  | execute (stopRequested : Bool)
  /-- libuv runs the close callback of `read_pipe_`. -/
  | closeCallback
  | leave

variable {Task : Type u}

/-- A constructed context: the loop thread runs, the read end is being read. -/
def init (next : Task → Option Task) (execute : Task → Work) : Context Task where
  queue := .empty next
  execute := execute
  stop := false
  pipe := 0
  readPipe := .active
  loop := .polling
  waiting := none
  destroying := false
  history := ⟨[], [], [], 0, 0, 0⟩

/-! ## Steps -/

section Steps

variable [DecidableEq Task]

/-- `enqueue`, with the outcome of its `::write`.  A write to a pipe whose read end
is closed fails. -/
def enqueue (c : Context Task) (task : Task) (work : Work) (wrote : Bool) : Context Task :=
  { c with
    queue := c.queue.enqueue task
    execute := Function.update c.execute task work
    pipe := if c.readPipe = .active ∧ wrote = true then c.pipe + 1 else c.pipe
    history :=
      { c.history with
        accepted :=
          if c.loop = .left then c.history.accepted else c.history.accepted ++ [(task, work)]
        late := if c.loop = .left then c.history.late ++ [(task, work)] else c.history.late
        lateWrites :=
          if c.readPipe = .active then c.history.lateWrites else c.history.lateWrites + 1 } }

/-- `stop()` schedules the closing of the pipe and waits. -/
def beginStop (c : Context Task) (caller : Caller) (task : Task) (wrote : Bool) : Context Task :=
  let c := enqueue c task .stopLet wrote
  { c with
    waiting := some task
    destroying := c.destroying || caller == .destructor
    history := { c.history with stops := c.history.stops + 1 } }

/-- The pop of `dequeueall`; on an empty queue the callback returns. -/
def dequeueall (c : Context Task) : Context Task :=
  match c.queue.pop with
  | none => { c with loop := .polling }
  | some (task, queue) => { c with queue := queue, loop := .executing task (c.execute task) }

/-- The continuation of the Close in `stop()`: the loop is told to stop and the
waiting caller completes. -/
def closeDone (c : Context Task) : Context Task :=
  { c with
    stop := true
    waiting := none
    history := { c.history with returned := c.history.returned + 1 } }

/-- What executing a job does on the loop thread.  `read_pipe_` is not writable, so
the Close of `stop()` calls `uv_close`, or completes when that was called before. -/
def runWork (c : Context Task) : Work → Context Task
  | .receiver _ => c
  | .stopLet => if c.readPipe = .active then { c with readPipe := .closing } else closeDone c

/-- `task->execute()` returns; `dequeueall` locks and unlocks and is done. -/
def finish (c : Context Task) (job : Job Task) (stopRequested : Bool) : Context Task :=
  runWork { c with
    loop := .polling
    history := { c.history with
      completed := c.history.completed ++ [(job, job.2.executeImpl stopRequested)] } } job.2

def step (c : Context Task) : Act Task → Option (Context Task)
  | .schedule task stopPossible wrote => some (enqueue c task (.receiver stopPossible) wrote)
  | .stop caller task wrote =>
      if c.waiting = none ∧ c.destroying = false then some (beginStop c caller task wrote) else none
  | .readByte =>
      if c.loop = .polling ∧ c.readPipe = .active ∧ 0 < c.pipe then
        some { c with pipe := c.pipe - 1, loop := .dequeuing }
      else none
  | .wake => if c.loop = .polling ∧ c.readPipe = .active then some c else none
  | .dequeueall => if c.loop = .dequeuing then some (dequeueall c) else none
  | .execute stopRequested =>
      match c.loop with
      | .executing task work => some (finish c (task, work) stopRequested)
      | _ => none
  | .closeCallback =>
      if c.loop = .polling ∧ c.readPipe = .closing then
        some (closeDone { c with readPipe := .closed })
      else none
  | .leave =>
      if c.loop = .polling ∧ c.stop = true then some { c with loop := .left } else none

end Steps

/-! ## What callers owe, and the queue invariant -/

/-- A task object is enqueued only while it is not in the queue. -/
def FreshTasks (c : Context Task) : Act Task → Prop
  | .schedule task _ _ => ¬ c.queue.Queued task
  | .stop _ task _ => ¬ c.queue.Queued task
  | _ => True

/-- The `::write` of an enqueue writes its byte. -/
def WritesSucceed (_ : Context Task) : Act Task → Prop
  | .schedule _ _ wrote => wrote = true
  | .stop _ _ wrote => wrote = true
  | _ => True

/-- The job being executed. -/
def Context.inFlight (c : Context Task) : List (Job Task) :=
  match c.loop with
  | .executing task work => [(task, work)]
  | _ => []

/-- The byte read whose dequeue has not happened yet. -/
def Context.pending (c : Context Task) : Nat :=
  match c.loop with
  | .dequeuing => 1
  | _ => 0

/-- The jobs of the queued tasks. -/
def Context.jobs (c : Context Task) (ts : List Task) : List (Job Task) :=
  ts.map fun t => (t, c.execute t)

/-- The fields stand for the queue `ts`, and every job enqueued has completed, is
being executed or is queued -- in this order, each once. -/
structure Ordered (c : Context Task) (ts : List Task) : Prop where
  queue : c.queue.Represents ts
  fifo : c.history.accepted ++ c.history.late =
    c.history.completed.map Prod.fst ++ c.inFlight ++ c.jobs ts

/-- While the read end is open every queued task has its wake-up byte. -/
def Counted (c : Context Task) (ts : List Task) : Prop :=
  c.readPipe = .active → ts.length = c.pipe + c.pending

/-- The enqueue's `::write` fails and writes nothing. -/
def Act.fails : Act Task → Bool
  | .schedule _ _ wrote => !wrote
  | .stop _ _ wrote => !wrote
  | _ => false

/-- While the read end is open every queued task but `lost` has its wake-up byte. -/
def Owing (lost : Nat) (c : Context Task) (ts : List Task) : Prop :=
  c.readPipe = .active → ts.length = c.pipe + c.pending + lost

/-- The loop thread is in a read callback only while the read end is open, and has
left only after `stop_` was set. -/
structure Disciplined (c : Context Task) : Prop where
  active_of_busy : c.loop ≠ .polling → c.loop ≠ .left → c.readPipe = .active
  stop_of_left : c.loop = .left → c.stop = true
  closed_of_stop : c.stop = true → c.readPipe = .closed
  late_of_running : c.loop ≠ .left → c.history.late = []

/-! ## Step lemmas -/

section StepLemmas

variable [DecidableEq Task] {c c' : Context Task} {ts : List Task} {task : Task} {work : Work}
  {a : Act Task}

/-- What each action does, and what holds where it is enabled. -/
inductive Step (c : Context Task) : Act Task → Context Task → Prop where
  | schedule (task : Task) (stopPossible wrote : Bool) :
      Step c (.schedule task stopPossible wrote) (enqueue c task (.receiver stopPossible) wrote)
  | stop (caller : Caller) (task : Task) (wrote : Bool) (free : c.waiting = none)
      (alive : c.destroying = false) :
      Step c (.stop caller task wrote) (beginStop c caller task wrote)
  | readByte (polling : c.loop = .polling) (active : c.readPipe = .active) (byte : 0 < c.pipe) :
      Step c .readByte { c with pipe := c.pipe - 1, loop := .dequeuing }
  | wake (polling : c.loop = .polling) (active : c.readPipe = .active) : Step c .wake c
  | dequeueall (dequeuing : c.loop = .dequeuing) : Step c .dequeueall (dequeueall c)
  | execute (task : Task) (work : Work) (stopRequested : Bool)
      (executing : c.loop = .executing task work) :
      Step c (.execute stopRequested) (finish c (task, work) stopRequested)
  | closeCallback (polling : c.loop = .polling) (closing : c.readPipe = .closing) :
      Step c .closeCallback (closeDone { c with readPipe := .closed })
  | leave (polling : c.loop = .polling) (stopped : c.stop = true) :
      Step c .leave { c with loop := .left }

theorem Step.of_step (taken : step c a = some c') : Step c a c' := by
  cases a with
  | schedule task stopPossible wrote =>
      cases taken
      exact .schedule task stopPossible wrote
  | stop caller task wrote =>
      simp only [step, Option.ite_none_right_eq_some, Option.some.injEq] at taken
      obtain ⟨⟨free, alive⟩, rfl⟩ := taken
      exact .stop caller task wrote free alive
  | readByte =>
      simp only [step, Option.ite_none_right_eq_some, Option.some.injEq] at taken
      obtain ⟨⟨polling, active, byte⟩, rfl⟩ := taken
      exact .readByte polling active byte
  | wake =>
      simp only [step, Option.ite_none_right_eq_some, Option.some.injEq] at taken
      obtain ⟨⟨polling, active⟩, rfl⟩ := taken
      exact .wake polling active
  | dequeueall =>
      simp only [step, Option.ite_none_right_eq_some, Option.some.injEq] at taken
      obtain ⟨dequeuing, rfl⟩ := taken
      exact .dequeueall dequeuing
  | execute stopRequested =>
      simp only [step] at taken
      split at taken
      · rename_i task work executing
        cases taken
        exact .execute task work stopRequested executing
      · cases taken
  | closeCallback =>
      simp only [step, Option.ite_none_right_eq_some, Option.some.injEq] at taken
      obtain ⟨⟨polling, closing⟩, rfl⟩ := taken
      exact .closeCallback polling closing
  | leave =>
      simp only [step, Option.ite_none_right_eq_some, Option.some.injEq] at taken
      obtain ⟨⟨polling, stopped⟩, rfl⟩ := taken
      exact .leave polling stopped

/-- A step that moves no task keeps the FIFO invariant. -/
theorem Ordered.congr (ord : Ordered c ts) (queue : c'.queue = c.queue)
    (execute : c'.execute = c.execute)
    (enqueued : c'.history.accepted ++ c'.history.late = c.history.accepted ++ c.history.late)
    (ran : c'.history.completed.map Prod.fst ++ c'.inFlight =
      c.history.completed.map Prod.fst ++ c.inFlight) : Ordered c' ts := by
  refine ⟨queue ▸ ord.queue, ?_⟩
  rw [enqueued, ord.fifo, ran, Context.jobs, Context.jobs, execute]

/-- Enqueueing a fresh task does not touch the jobs already queued. -/
theorem jobs_update (fresh : task ∉ ts) (wrote : Bool) :
    (enqueue c task work wrote).jobs ts = c.jobs ts := by
  refine List.map_congr_left fun t member => ?_
  have ne : t ≠ task := fun same => fresh (same ▸ member)
  simp only [enqueue, Function.update_of_ne ne]

theorem enqueue_ordered (ord : Ordered c ts) (dis : Disciplined c)
    (fresh : ¬ c.queue.Queued task) (work : Work) (wrote : Bool) :
    Ordered (enqueue c task work wrote) (ts ++ [task]) := by
  refine ⟨TaskQueue.enqueue_represents ord.queue fresh, ?_⟩
  rw [ord.queue.queued_iff] at fresh
  have last : (enqueue c task work wrote).jobs [task] = [(task, work)] := by
    simp [Context.jobs, enqueue]
  have queued : (enqueue c task work wrote).jobs (ts ++ [task]) = c.jobs ts ++ [(task, work)] := by
    rw [← last, ← jobs_update fresh wrote, Context.jobs, List.map_append]
    rfl
  have recorded : (enqueue c task work wrote).history.accepted ++
      (enqueue c task work wrote).history.late =
        (c.history.accepted ++ c.history.late) ++ [(task, work)] := by
    by_cases out : c.loop = .left
    · simp [enqueue, out]
    · simp [enqueue, out, dis.late_of_running out]
  rw [recorded, queued, ord.fifo]
  simp only [List.append_assoc]
  rfl

theorem enqueue_owing {lost : Nat} (owing : Owing lost c ts) (work : Work) (wrote : Bool) :
    Owing (lost + (!wrote).toNat) (enqueue c task work wrote) (ts ++ [task]) := by
  intro active
  have before := owing active
  have active' : c.readPipe = .active := active
  simp only [enqueue, active', true_and, List.length_append, List.length_singleton,
    Context.pending] at before ⊢
  cases wrote
  · simp only [Bool.false_eq_true, if_false, Bool.not_false, Bool.toNat_true]
    omega
  · simp only [if_true, Bool.not_true, Bool.toNat_false]
    omega

theorem enqueue_disciplined (dis : Disciplined c) (task : Task) (work : Work) (wrote : Bool) :
    Disciplined (enqueue c task work wrote) where
  active_of_busy := dis.active_of_busy
  stop_of_left := dis.stop_of_left
  closed_of_stop := dis.closed_of_stop
  late_of_running running := by
    have running' : c.loop ≠ .left := running
    simp only [enqueue, running', if_false]
    exact dis.late_of_running running'

/-- The dequeue of a byte that was counted always finds a task; one that was not may
find the queue empty. -/
theorem dequeueall_ordered (ord : Ordered c ts) (at_ : c.loop = .dequeuing) :
    ∃ ts', Ordered (dequeueall c) ts' ∧
      ∀ lost, Owing lost c ts → Owing lost (dequeueall c) ts' := by
  have idle : c.inFlight = [] := by simp [Context.inFlight, at_]
  have byte : c.pending = 1 := by simp [Context.pending, at_]
  have fifo := ord.fifo
  rw [idle] at fifo
  cases popped : c.queue.pop with
  | none =>
      have result : dequeueall c = { c with loop := .polling } := by simp [dequeueall, popped]
      rw [result]
      obtain rfl := (TaskQueue.pop_eq_none ord.queue).mp popped
      refine ⟨[], ⟨ord.queue, fifo⟩, ?_⟩
      intro lost owing active
      have := owing active
      rw [byte, List.length_nil] at this
      omega
  | some front =>
      obtain ⟨task, queue⟩ := front
      have result : dequeueall c =
          { c with queue := queue, loop := .executing task (c.execute task) } := by
        simp [dequeueall, popped]
      rw [result]
      obtain ⟨rest, rfl, rep⟩ := TaskQueue.pop_represents ord.queue popped
      refine ⟨rest, ⟨rep, ?_⟩, ?_⟩
      · rw [List.append_nil] at fifo
        rw [List.append_assoc]
        exact fifo
      · intro lost owing active
        have := owing active
        rw [byte, List.length_cons] at this
        simp only [Context.pending]
        omega

theorem runWork_idle (c : Context Task) (work : Work) (idle : c.loop = .polling) :
    (runWork c work).queue = c.queue ∧ (runWork c work).execute = c.execute ∧
      (runWork c work).history.accepted = c.history.accepted ∧
      (runWork c work).history.late = c.history.late ∧
      (runWork c work).history.completed = c.history.completed ∧
      (runWork c work).loop = .polling := by
  cases work with
  | receiver stopPossible => exact ⟨rfl, rfl, rfl, rfl, rfl, idle⟩
  | stopLet =>
      simp only [runWork]
      split
      · exact ⟨rfl, rfl, rfl, rfl, rfl, idle⟩
      · exact ⟨rfl, rfl, rfl, rfl, rfl, idle⟩

theorem finish_ordered (ord : Ordered c ts) (at_ : c.loop = .executing task work)
    (stopRequested : Bool) : Ordered (finish c (task, work) stopRequested) ts := by
  obtain ⟨queue, execute, accepted, late, completed, idle⟩ :=
    runWork_idle { c with
      loop := .polling
      history := { c.history with
        completed := c.history.completed ++ [((task, work), work.executeImpl stopRequested)] } }
      work rfl
  refine ord.congr queue execute ?_ ?_
  · show (runWork _ _).history.accepted ++ (runWork _ _).history.late = _
    rw [accepted, late]
  · have done : (finish c (task, work) stopRequested).inFlight = [] := by
      simp only [Context.inFlight, finish, idle]
    have running : c.inFlight = [(task, work)] := by simp only [Context.inFlight, at_]
    rw [done, running, List.append_nil]
    show (runWork _ _).history.completed.map Prod.fst = _
    rw [completed, List.map_append]
    rfl

/-- **The FIFO invariant is kept** by every step that enqueues no queued object, and
only a step whose `::write` fails adds to the wake-up bytes owed. -/
theorem step_owing (ord : Ordered c ts) (dis : Disciplined c) (fresh : FreshTasks c a)
    (taken : step c a = some c') :
    ∃ ts', Ordered c' ts' ∧ ∀ lost, Owing lost c ts → Owing (lost + a.fails.toNat) c' ts' := by
  cases Step.of_step taken with
  | schedule task stopPossible wrote =>
      exact ⟨_, enqueue_ordered ord dis fresh (.receiver stopPossible) wrote, fun lost owing =>
        enqueue_owing owing (.receiver stopPossible) wrote⟩
  | stop caller task wrote =>
      have kept := enqueue_ordered ord dis fresh .stopLet wrote
      exact ⟨_, ⟨kept.queue, kept.fifo⟩, fun lost owing => enqueue_owing owing .stopLet wrote⟩
  | readByte polling active byte =>
      refine ⟨ts, ord.congr rfl rfl rfl (by simp [Context.inFlight, polling]), ?_⟩
      intro lost owing active
      have := owing active
      simp only [Context.pending, polling, Act.fails, Bool.toNat_false] at this ⊢
      omega
  | wake => exact ⟨ts, ord, fun _ owing => owing⟩
  | dequeueall dequeuing => exact dequeueall_ordered ord dequeuing
  | execute task work stopRequested executing =>
      refine ⟨ts, finish_ordered ord executing stopRequested, fun lost owing => ?_⟩
      unfold finish runWork closeDone
      cases work with
      | receiver stopPossible =>
          intro active
          simpa [Context.pending, executing, Act.fails] using owing active
      | stopLet =>
          simp only
          split
          · nofun
          · rename_i closed
            exact fun active => absurd active closed
  | closeCallback polling closing => exact ⟨ts, ⟨ord.queue, ord.fifo⟩, fun _ _ => nofun⟩
  | leave polling stopped =>
      refine ⟨ts, ord.congr rfl rfl rfl (by simp [Context.inFlight, polling]),
        fun _ _ active => ?_⟩
      cases (dis.closed_of_stop stopped).symm.trans active

theorem fails_of_writesSucceed (writes : WritesSucceed c a) : a.fails = false := by
  cases a with
  | schedule task stopPossible wrote => simpa [Act.fails, WritesSucceed] using writes
  | stop caller task wrote => simpa [Act.fails, WritesSucceed] using writes
  | _ => rfl

/-- The FIFO invariant and the count, when the step's `::write` succeeds. -/
theorem step_ordered (ord : Ordered c ts) (dis : Disciplined c) (fresh : FreshTasks c a)
    (taken : step c a = some c') :
    ∃ ts', Ordered c' ts' ∧ (WritesSucceed c a → Counted c ts → Counted c' ts') := by
  obtain ⟨ts', kept, owes⟩ := step_owing ord dis fresh taken
  refine ⟨ts', kept, fun writes count => ?_⟩
  have := owes 0 count
  rwa [fails_of_writesSucceed writes] at this

/-- While the loop thread executes a task the read end is open, nothing came late and
`stop_` is not set. -/
theorem Disciplined.of_executing (dis : Disciplined c) (executing : c.loop = .executing task work) :
    c.readPipe = .active ∧ c.history.late = [] ∧ c.stop = false := by
  have active := dis.active_of_busy (by simp [executing]) (by simp [executing])
  refine ⟨active, dis.late_of_running (by simp [executing]), ?_⟩
  cases stopped : c.stop with
  | false => rfl
  | true => cases (dis.closed_of_stop stopped).symm.trans active

theorem step_disciplined (dis : Disciplined c) (taken : step c a = some c') : Disciplined c' := by
  cases Step.of_step taken with
  | schedule task stopPossible wrote =>
      exact enqueue_disciplined dis task (.receiver stopPossible) wrote
  | stop caller task wrote =>
      have kept := enqueue_disciplined dis task .stopLet wrote
      exact ⟨kept.active_of_busy, kept.stop_of_left, kept.closed_of_stop, kept.late_of_running⟩
  | readByte polling active =>
      exact ⟨fun _ _ => active, nofun, dis.closed_of_stop, fun _ =>
        dis.late_of_running (by simp [polling])⟩
  | wake => exact dis
  | dequeueall dequeuing =>
      have active := dis.active_of_busy (by simp [dequeuing]) (by simp [dequeuing])
      have early := dis.late_of_running (by simp [dequeuing])
      unfold dequeueall
      split
      · exact ⟨fun _ _ => active, nofun, dis.closed_of_stop, fun _ => early⟩
      · exact ⟨fun _ _ => active, nofun, dis.closed_of_stop, fun _ => early⟩
  | execute task work stopRequested executing =>
      obtain ⟨active, early, running⟩ := dis.of_executing executing
      unfold finish runWork
      cases work with
      | receiver stopPossible =>
          exact ⟨fun idle => absurd rfl idle, nofun, dis.closed_of_stop, fun _ => early⟩
      | stopLet =>
          simp only [active, if_true]
          refine ⟨fun idle => absurd rfl idle, nofun, fun stopped => ?_, fun _ => early⟩
          cases running.symm.trans stopped
  | closeCallback polling =>
      exact ⟨fun idle => absurd polling idle, fun _ => rfl, fun _ => rfl, dis.late_of_running⟩
  | leave polling stopped =>
      exact ⟨fun _ out => absurd rfl out, fun _ => stopped, dis.closed_of_stop,
        fun out => absurd rfl out⟩

end StepLemmas

/-! ## Runs -/

section Runs

variable [DecidableEq Task]

/-- The discipline of the schedulers: no object twice, no failed wake-up. -/
def Scheduling (c : Context Task) (a : Act Task) : Prop :=
  FreshTasks c a ∧ WritesSucceed c a

theorem init_disciplined (next : Task → Option Task) (execute : Task → Work) :
    Disciplined (init next execute) :=
  ⟨fun idle => absurd rfl idle, nofun, nofun, fun _ => rfl⟩

theorem init_ordered (next : Task → Option Task) (execute : Task → Work) :
    Ordered (init next execute) [] :=
  ⟨TaskQueue.represents_empty next, rfl⟩

variable {next : Task → Option Task} {execute : Task → Work} {acts : List (Act Task)}
  {c : Context Task}

theorem run_disciplined (reached : run step (init next execute) acts = some c) : Disciplined c :=
  run_invariant (fun _ _ _ dis taken => step_disciplined dis taken)
    (init_disciplined next execute) reached

/-- The queue is well formed and in order in every run that enqueues no queued
object, whatever happens to the wake-up bytes and at shutdown. -/
theorem run_ordered (fresh : Along step FreshTasks (init next execute) acts)
    (reached : run step (init next execute) acts = some c) :
    Disciplined c ∧ ∃ ts, Ordered c ts := by
  refine fresh.invariant (I := fun c => Disciplined c ∧ ∃ ts, Ordered c ts) ?_
    ⟨init_disciplined next execute, [], init_ordered next execute⟩ reached
  rintro s a s' ⟨dis, ts, ord⟩ freshStep taken
  obtain ⟨ts', kept, -⟩ := step_ordered ord dis freshStep taken
  exact ⟨step_disciplined dis taken, ts', kept⟩

theorem run_counted (meets : Along step Scheduling (init next execute) acts)
    (reached : run step (init next execute) acts = some c) :
    Disciplined c ∧ ∃ ts, Ordered c ts ∧ Counted c ts := by
  refine meets.invariant (I := fun c => Disciplined c ∧ ∃ ts, Ordered c ts ∧ Counted c ts) ?_
    ⟨init_disciplined next execute, [], init_ordered next execute, fun _ => rfl⟩ reached
  rintro s a s' ⟨dis, ts, ord, count⟩ ⟨fresh, writes⟩ taken
  obtain ⟨ts', kept, counts⟩ := step_ordered ord dis fresh taken
  exact ⟨step_disciplined dis taken, ts', kept, counts writes count⟩

/-- **Tasks run in FIFO order, each once, and no wake-up is lost**, in every state
of every interleaving until the read end of the pipe is being closed. -/
theorem scheduled_in_order (meets : Along step Scheduling (init next execute) acts)
    (reached : run step (init next execute) acts = some c) (active : c.readPipe = .active) :
    ∃ ts, c.queue.Represents ts ∧
      (c.queue.head = none ↔ c.queue.tail = none) ∧
      (∀ last, c.queue.tail = some last → c.queue.next last = none) ∧
      ts.length = c.pipe + c.pending ∧
      (c.pipe = 0 → c.pending = 0 → c.queue.head = none) ∧
      c.history.accepted = c.history.completed.map Prod.fst ++ c.inFlight ++ c.jobs ts := by
  obtain ⟨dis, ts, ord, count⟩ := run_counted meets reached
  have running : c.loop ≠ .left := by
    intro left
    cases (dis.closed_of_stop (dis.stop_of_left left)).symm.trans active
  have counted := count active
  refine ⟨ts, ord.queue, ord.queue.head_eq_none_iff, fun last => ord.queue.tail_next, counted,
    fun drained idle => ?_, ?_⟩
  · rw [drained, idle] at counted
    have none_ : ts = [] := List.eq_nil_of_length_eq_zero counted
    rw [ord.queue.head_eq, none_]
    rfl
  · have fifo := ord.fifo
    rwa [dis.late_of_running running, List.append_nil] at fifo

/-- Two producers enqueue, and the loop thread pops the first task. -/
theorem scheduled_in_order_two :
    ∃ c, run step (init (fun _ : Nat => none) fun _ => .receiver false)
        [.schedule 0 false true, .schedule 1 true true, .readByte, .dequeueall] = some c ∧
      ∃ ts, c.queue.Represents ts ∧
        (c.queue.head = none ↔ c.queue.tail = none) ∧
        (∀ last, c.queue.tail = some last → c.queue.next last = none) ∧
        ts.length = c.pipe + c.pending ∧
        (c.pipe = 0 → c.pending = 0 → c.queue.head = none) ∧
        c.history.accepted = c.history.completed.map Prod.fst ++ c.inFlight ++ c.jobs ts := by
  have meets : Along step Scheduling (init (fun _ : Nat => none) fun _ => .receiver false)
      [.schedule 0 false true, .schedule 1 true true, .readByte, .dequeueall] := by
    refine along_cons ⟨?_, rfl⟩ rfl (along_cons ⟨?_, rfl⟩ rfl
      (along_cons ⟨trivial, trivial⟩ rfl (along_cons ⟨trivial, trivial⟩ rfl trivial)))
    · exact PatBase.Lib.IntrusiveList.not_reaches_of_ends (k := 0) rfl nofun
    · exact PatBase.Lib.IntrusiveList.not_reaches_of_ends (k := 1) rfl (by decide)
  exact ⟨_, rfl, scheduled_in_order meets rfl rfl⟩

end Runs

end PatBase.Runtime.IoContext
