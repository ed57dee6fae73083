/-
# PatBase.Runtime.TaskQueue -- the intrusive queue of `IOContext`

`head_`, `tail_` and the `next_` link of every `task_base`, with the two pieces
of pat/runtime/io_context.cc that touch them while `mutex_` is held: the linking
in `enqueue` and the pop in `dequeueall`.  `Represents q ts` says the fields
stand for the queue `ts`; `enqueue_represents` and `pop_represents` say that the
two pieces are the append and the removal of the front.
-/
import PatBase.Lib.IntrusiveList

namespace PatBase.Runtime

open PatBase.Lib.IntrusiveList

set_option autoImplicit false

universe u

structure TaskQueue (Task : Type u) where
  head : Option Task
  tail : Option Task
  next : Task → Option Task

namespace TaskQueue

variable {Task : Type u}

/-- The fields of a new context; the links of tasks never enqueued are whatever
their objects hold. -/
def empty (next : Task → Option Task) : TaskQueue Task := ⟨none, none, next⟩

/-- The linking in `enqueue`.  Where `head_` is set and `tail_` is null the code
would dereference null; `Represents.head_eq_none_iff` excludes it. -/
def enqueue [DecidableEq Task] (q : TaskQueue Task) (task : Task) : TaskQueue Task :=
  let linked : TaskQueue Task :=
    match q.head, q.tail with
    | none, _ => { q with head := some task }
    | some _, some last => { q with next := Function.update q.next last (some task) }
    | some _, none => q
  { linked with tail := some task, next := Function.update linked.next task none }

/-- The pop in `dequeueall`: nothing when `head_` is null. -/
def pop (q : TaskQueue Task) : Option (Task × TaskQueue Task) :=
  match q.head with
  | none => none
  | some task =>
      let head := q.next task
      some (task, { q with head := head, tail := if head.isNone then none else q.tail })

/-- The task is found by following `next_` from `head_`. -/
def Queued (q : TaskQueue Task) (task : Task) : Prop := Reaches q.next q.head task

structure Represents (q : TaskQueue Task) (ts : List Task) : Prop where
  path : Path q.next q.head ts
  nodup : ts.Nodup
  tail_eq : q.tail = ts.getLast?

variable {q q' : TaskQueue Task} {ts : List Task} {task : Task}

theorem represents_empty (next : Task → Option Task) : Represents (empty next) [] :=
  ⟨rfl, List.nodup_nil, rfl⟩

namespace Represents

theorem queued_iff (rep : Represents q ts) : q.Queued task ↔ task ∈ ts := rep.path.reaches_iff

theorem head_eq (rep : Represents q ts) : q.head = ts.head? := rep.path.head_eq

theorem head_eq_none_iff (rep : Represents q ts) : q.head = none ↔ q.tail = none := by
  rw [rep.head_eq, rep.tail_eq, List.head?_eq_none_iff, List.getLast?_eq_none_iff]

/-- The queue ends at `tail_`, with a null `next_`. -/
theorem tail_next (rep : Represents q ts) {last : Task} (atTail : q.tail = some last) :
    q.next last = none :=
  rep.path.last_next (rep.tail_eq ▸ atTail)

/-- The fields stand for one queue only. -/
theorem unique {us : List Task} (rep : Represents q ts) (rep' : Represents q us) : ts = us :=
  rep.path.unique rep'.path

end Represents

/-- Enqueueing a task that is not in the queue appends it. -/
theorem enqueue_represents [DecidableEq Task] (rep : Represents q ts)
    (fresh : ¬ q.Queued task) : Represents (q.enqueue task) (ts ++ [task]) := by
  rw [rep.queued_iff] at fresh
  have nodup : (ts ++ [task]).Nodup := by
    rw [List.nodup_append]
    refine ⟨rep.nodup, List.nodup_singleton task, fun a member b same equal => fresh ?_⟩
    rw [List.mem_singleton] at same
    exact same ▸ equal ▸ member
  cases ts with
  | nil =>
      have headNone : q.head = none := rep.head_eq
      refine ⟨?_, nodup, ?_⟩ <;> simp only [enqueue, headNone]
      · exact ⟨rfl, Function.update_self _ _ _⟩
      · rfl
  | cons t rest =>
      have headSome : q.head = some t := rep.head_eq
      obtain ⟨last, atTail⟩ : ∃ last, q.tail = some last := by
        rw [rep.tail_eq]
        exact ⟨_, List.getLast?_eq_some_getLast (List.cons_ne_nil t rest)⟩
      refine ⟨?_, nodup, ?_⟩ <;> simp only [enqueue, headSome, atTail]
      · exact headSome ▸ rep.path.append rep.nodup fresh (rep.tail_eq ▸ atTail)
      · rw [List.getLast?_append_cons, List.getLast?_singleton]

theorem pop_eq_none (rep : Represents q ts) : q.pop = none ↔ ts = [] := by
  unfold pop
  rw [rep.head_eq]
  cases ts <;> simp

/-- Popping removes the front. -/
theorem pop_represents (rep : Represents q ts) (popped : q.pop = some (task, q')) :
    ∃ rest, ts = task :: rest ∧ Represents q' rest := by
  have headEq := rep.head_eq
  unfold pop at popped
  cases ts with
  | nil =>
      rw [headEq] at popped
      cases popped
  | cons t rest =>
      rw [headEq] at popped
      cases popped
      have tailEq := rep.tail_eq
      have restPath : Path q.next (q.next task) rest := rep.path.2
      refine ⟨rest, rfl, restPath, (List.nodup_cons.mp rep.nodup).2, ?_⟩
      cases rest with
      | nil =>
          have ends : q.next task = none := restPath
          simp [ends]
      | cons u us =>
          have goes : q.next task = some u := restPath.1
          simpa [goes] using tailEq

end TaskQueue

end PatBase.Runtime
