/-
# PatBase.Runtime.FailedWakeup -- a `::write` that fails in `enqueue`

`enqueue` drops the result of its `::write`, and `dequeueall` pops one task for each
byte.  So every failed write leaves the queue one task longer than the bytes that
will ever be read for it (`Owing`): once the pipe is drained, that many tasks wait,
and later bytes only change which ones.
-/
import PatBase.Runtime.IoContext

namespace PatBase.Runtime.IoContext

open PatBase.Lib.Machine

set_option autoImplicit false

universe u

variable {Task : Type u} [DecidableEq Task] {next : Task → Option Task} {execute : Task → Work}
  {acts : List (Act Task)} {c : Context Task}

/-- The queue is as much longer than the bytes for it as writes have failed. -/
theorem run_owing (fresh : Along step FreshTasks (init next execute) acts)
    (reached : run step (init next execute) acts = some c) :
    ∃ ts, Ordered c ts ∧ Owing (acts.countP Act.fails) c ts := by
  refine run_history (P := fun acts c => Along step FreshTasks (init next execute) acts →
    ∃ ts, Ordered c ts ∧ Owing (acts.countP Act.fails) c ts) ?start ?extend reached fresh
  case start =>
    intro _
    exact ⟨[], init_ordered next execute, fun _ => rfl⟩
  case extend =>
    intro acts c a c' reached ih taken fresh
    obtain ⟨earlier, freshStep⟩ := (along_snoc reached).mp fresh
    obtain ⟨ts, ord, owes⟩ := ih earlier
    obtain ⟨ts', kept, owes'⟩ := step_owing ord (run_disciplined reached) freshStep taken
    refine ⟨ts', kept, ?_⟩
    have total : (acts ++ [a]).countP Act.fails = acts.countP Act.fails + a.fails.toNat := by
      cases failed : a.fails <;> simp [List.countP_append, failed]
    rw [total]
    exact owes' _ owes

/-- **A drained pipe leaves exactly as many tasks behind as writes failed**, in every
state before the read end of the pipe is being closed. -/
theorem drained_iff_no_write_failed
    (fresh : Along step FreshTasks (init next execute) acts)
    (reached : run step (init next execute) acts = some c) (active : c.readPipe = .active) :
    (∃ ts, c.queue.Represents ts ∧ ts.length = c.pipe + c.pending + acts.countP Act.fails) ∧
      (c.pipe = 0 → c.pending = 0 →
        (c.queue.head = none ↔ ∀ a ∈ acts, a.fails = false)) := by
  obtain ⟨ts, ord, owes⟩ := run_owing fresh reached
  have length := owes active
  refine ⟨⟨ts, ord.queue, length⟩, ?_⟩
  intro drained idle
  rw [drained, idle] at length
  rw [ord.queue.head_eq, List.head?_eq_none_iff, ← List.length_eq_zero_iff, length]
  simp

/-- A failed write before a good one: the byte wakes the loop for the first task, and
the second is left in the queue. -/
theorem drained_iff_no_write_failed_two :
    ∃ (acts : List (Act Nat)) (c : Context Nat),
      acts = [.schedule 0 false false, .schedule 1 false true, .readByte, .dequeueall] ∧
      run step (init (fun _ : Nat => none) fun _ => .receiver false) acts = some c ∧
      (∃ ts, c.queue.Represents ts ∧ ts.length = c.pipe + c.pending + acts.countP Act.fails) ∧
      (c.pipe = 0 → c.pending = 0 →
        (c.queue.head = none ↔ ∀ a ∈ acts, a.fails = false)) := by
  have fresh : Along step FreshTasks (init (fun _ : Nat => none) fun _ => .receiver false)
      [.schedule 0 false false, .schedule 1 false true, .readByte, .dequeueall] := by
    refine along_cons ?_ rfl (along_cons ?_ rfl
      (along_cons trivial rfl (along_cons trivial rfl trivial)))
    · exact PatBase.Lib.IntrusiveList.not_reaches_of_ends (k := 0) rfl nofun
    · exact PatBase.Lib.IntrusiveList.not_reaches_of_ends (k := 1) rfl (by decide)
  exact ⟨_, _, rfl, rfl, drained_iff_no_write_failed fresh rfl rfl⟩

/-- Two tasks, one byte: with the pipe empty again the second task waits. -/
theorem stranded_task :
    ∃ c, run step (init (fun _ : Nat => none) fun _ => .receiver false)
        [.schedule 0 false false, .schedule 1 false true, .readByte, .dequeueall,
          .execute false] = some c ∧
      c.readPipe = .active ∧ c.loop = .polling ∧ c.pipe = 0 ∧ c.pending = 0 ∧
      c.queue.head = some 1 :=
  ⟨_, rfl, rfl, rfl, rfl, rfl, rfl⟩

end PatBase.Runtime.IoContext
