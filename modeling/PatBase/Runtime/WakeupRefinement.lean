/-
# PatBase.Runtime.WakeupRefinement -- an enqueue may be taken for one step

`IoContext` takes the whole mutex section of an enqueue as one step; in `WakeupPipe` it
is three, the second of which may wait for room in the pipe while the loop thread reads
on.  Here the second machine is explained by the first: an enqueue stands for one
`schedule` of `IoContext` at the moment it links its task, with its byte counted as
written from then on, and the write and the unlock stand for nothing.

So whatever holds of every run of `IoContext` holds of what the threads do in smaller
steps (`enqueue_is_atomic`), for a pipe of any capacity and with the loop thread among
those who enqueue.
-/
import PatBase.Lib.Simulation
import PatBase.Runtime.IoContext
import PatBase.Runtime.WakeupPipe

namespace PatBase.Runtime.WakeupPipe

open PatBase.Lib.Machine
open PatBase.Runtime.IoContext (Context Scheduling Signal Work)

set_option autoImplicit false
set_option linter.unusedSectionVars false

universe u v

variable {ι : Type u} {Task : Type v}

/-! ## What a step stands for -/

/-- The task that the next enqueue of a thread links. -/
def State.next (c : State ι Task) : Thread ι → Option Task
  | .loop =>
      match c.loop with
      | .executing (task :: _) => some task
      | _ => none
  | .producer i => (c.todo i).head?

/-- The steps of `IoContext` for a step of this machine.  Receivers have no stop token
here, and every `::write` that returns has written its byte. -/
def image (c : State ι Task) : Act ι Task → List (IoContext.Act Task)
  | .readByte => [.readByte]
  | .dequeueall _ => [.dequeueall]
  | .relock => [.execute false]
  | .link owner => (c.next owner).toList.map fun task => .schedule task false true
  | .write => []
  | .unlock => []

/-- A task object is linked only while it is not in the queue. -/
def FreshLinks (c : State ι Task) : Act ι Task → Prop
  | .link owner => ∀ task, c.next owner = some task → task ∉ c.queue
  | _ => True

/-! ## Related states -/

/-- The loop thread is at the same point. -/
def SamePoint : Loop Task → IoContext.Loop Task → Prop
  | .polling, point => point = .polling
  | .locking, point => point = .dequeuing
  | .executing _, point => ∃ task, point = .executing task (.receiver false)

/-- The byte of a linked task counts as written. -/
structure Refines (c : State ι Task) (d : Context Task) : Prop where
  queue : d.queue.Represents c.queue
  receivers : ∀ task ∈ c.queue, d.execute task = .receiver false
  pipe : d.pipe = c.pipe + c.unwritten
  active : d.readPipe = .active
  loop : SamePoint c.loop d.loop

theorem init_refines (next : Task → Option Task) (execute : Task → Work)
    (todo : ι → List Task) : Refines (init todo) (IoContext.init next execute) :=
  ⟨TaskQueue.represents_empty next, nofun, rfl, rfl, rfl⟩

section Steps

variable [DecidableEq ι] {capacity : Nat} {c c' : State ι Task} {d : Context Task}
  {owner : Thread ι}

/-- Linking queues the thread's next task and leaves the loop thread where it is. -/
theorem link_spec (taken : link c owner = some c') :
    ∃ task, c.next owner = some task ∧ c'.queue = c.queue ++ [task] ∧
      c.mutex = .free ∧ c'.mutex = .linked owner ∧ c'.pipe = c.pipe ∧
      ∀ point, SamePoint c.loop point → SamePoint c'.loop point := by
  by_cases free : c.mutex = .free
  · cases owner with
    | loop =>
        simp only [link, free, if_true] at taken
        split at taken
        · rename_i task rest executing
          cases taken
          refine ⟨task, ?_, rfl, free, rfl, rfl, fun point same => ?_⟩
          · simp only [State.next, executing]
          · rw [executing] at same
            exact same
        · cases taken
    | producer i =>
        simp only [link, free, if_true] at taken
        split at taken
        · cases taken
        · rename_i task rest scheduled
          cases taken
          refine ⟨task, ?_, rfl, free, rfl, rfl, fun point same => same⟩
          simp only [State.next, scheduled, List.head?_cons]
  · simp only [link, free, if_false] at taken
    cases taken

variable [DecidableEq Task]

/-- An enqueue is explained when it links its task. -/
theorem link_refines {task : Task} (related : Refines c d) (fresh : task ∉ c.queue)
    (queue : c'.queue = c.queue ++ [task]) (free : c.mutex = .free)
    (linked : c'.mutex = .linked owner) (pipe : c'.pipe = c.pipe)
    (loop : ∀ point, SamePoint c.loop point → SamePoint c'.loop point) :
    Refines c' (IoContext.enqueue d task (.receiver false) true) := by
  have free' : ¬ d.queue.Queued task := by
    rw [related.queue.queued_iff]
    exact fresh
  refine ⟨?queue, ?receivers, ?pipe, related.active, loop _ related.loop⟩
  case queue =>
    rw [queue]
    exact TaskQueue.enqueue_represents related.queue free'
  case receivers =>
    intro t member
    rw [queue] at member
    by_cases same : t = task
    · rw [same]
      exact Function.update_self ..
    · rcases List.mem_append.mp member with earlier | last
      · exact (Function.update_of_ne same ..).trans (related.receivers t earlier)
      · exact absurd (List.mem_singleton.mp last) same
  case pipe =>
    have before : c.unwritten = 0 := by simp only [State.unwritten, free]
    have after : c'.unwritten = 1 := by simp only [State.unwritten, linked]
    have written : (IoContext.enqueue d task (.receiver false) true).pipe = d.pipe + 1 := by
      simp [IoContext.enqueue, related.active]
    rw [written, related.pipe, pipe, before, after]

/-- The pops agree, also where a byte finds the queue empty. -/
theorem dequeueall_refines (related : Refines c d) (script : List Task) :
    Refines (dequeueall c script) (IoContext.dequeueall d) := by
  cases popped : d.queue.pop with
  | none =>
      have empty := (TaskQueue.pop_eq_none related.queue).mp popped
      have here : dequeueall c script = { c with loop := .polling } := by
        simp only [dequeueall, empty]
      have there : IoContext.dequeueall d = { d with loop := .polling } := by
        simp only [IoContext.dequeueall, popped]
      rw [here, there]
      exact ⟨related.queue, related.receivers, related.pipe, related.active, rfl⟩
  | some front =>
      obtain ⟨task, queue⟩ := front
      obtain ⟨rest, split, rep⟩ := TaskQueue.pop_represents related.queue popped
      have here : dequeueall c script = { c with queue := rest, loop := .executing script } := by
        simp only [dequeueall, split]
      have there : IoContext.dequeueall d =
          { d with queue := queue, loop := .executing task (d.execute task) } := by
        simp only [IoContext.dequeueall, popped]
      have receivers := related.receivers
      rw [split] at receivers
      rw [here, there, receivers task List.mem_cons_self]
      exact ⟨rep, fun t member => receivers t (.tail task member), related.pipe, related.active,
        task, rfl⟩

/-- **Each step is explained**, by no step, or by one that keeps to the discipline of
those who schedule. -/
theorem step_simulates :
    Simulation (σ := State ι Task) (step capacity) IoContext.step image FreshLinks Scheduling
      Refines := by
  intro c d a c' related fresh taken
  cases Step.of_step taken with
  | readByte polling byte =>
      have point := related.loop
      rw [polling] at point
      have enabled : IoContext.step d .readByte =
          some { d with pipe := d.pipe - 1, loop := .dequeuing } := by
        have more : 0 < d.pipe := by
          rw [related.pipe]
          omega
        exact if_pos ⟨point, related.active, more⟩
      refine ⟨_, run_cons_eq_some.mpr ⟨_, enabled, rfl⟩, ⟨⟨trivial, trivial⟩, fun _ _ => trivial⟩,
        related.queue, related.receivers, ?_, related.active, rfl⟩
      show d.pipe - 1 = c.pipe - 1 + c.unwritten
      rw [related.pipe]
      omega
  | dequeueall script locking free =>
      have point := related.loop
      rw [locking] at point
      have enabled : IoContext.step d .dequeueall = some (IoContext.dequeueall d) := if_pos point
      exact ⟨_, run_cons_eq_some.mpr ⟨_, enabled, rfl⟩, ⟨⟨trivial, trivial⟩, fun _ _ => trivial⟩,
        dequeueall_refines related script⟩
  | relock executing free =>
      have point := related.loop
      rw [executing] at point
      obtain ⟨task, point⟩ := point
      have enabled : IoContext.step d (.execute false) =
          some (IoContext.finish d (task, .receiver false) false) := by
        simp only [IoContext.step, point]
      exact ⟨_, run_cons_eq_some.mpr ⟨_, enabled, rfl⟩, ⟨⟨trivial, trivial⟩, fun _ _ => trivial⟩,
        related.queue, related.receivers, related.pipe, related.active, rfl⟩
  | link owner _ links =>
      obtain ⟨task, next, queue, free, linked, pipe, loop⟩ := link_spec links
      have unqueued : task ∉ c.queue := fresh task next
      have one : image c (.link owner) = [.schedule task false true] := by
        simp only [image, next, Option.toList_some, List.map_cons, List.map_nil]
      have free' : ¬ d.queue.Queued task := by
        rw [related.queue.queued_iff]
        exact unqueued
      rw [one]
      exact ⟨_, rfl, ⟨⟨free', rfl⟩, fun _ _ => trivial⟩,
        link_refines related unqueued queue free linked pipe loop⟩
  | write owner linked room =>
      refine ⟨d, rfl, trivial, related.queue, related.receivers, ?_, related.active, related.loop⟩
      have before : c.unwritten = 1 := by simp only [State.unwritten, linked]
      show d.pipe = c.pipe + 1 + 0
      rw [related.pipe, before]
  | unlock owner written =>
      refine ⟨d, rfl, trivial, related.queue, related.receivers, ?_, related.active, related.loop⟩
      have before : c.unwritten = 0 := by simp only [State.unwritten, written]
      show d.pipe = c.pipe + 0
      rw [related.pipe, before]

end Steps

/-! ## Runs -/

section Runs

variable [DecidableEq ι] [DecidableEq Task] {capacity : Nat} {todo : ι → List Task}
  {acts : List (Act ι Task)} {c : State ι Task}

/-- **An enqueue is atomic.**  Every run that links no queued task is explained by the
run of `IoContext` that schedules the tasks one by one, in the order they were linked. -/
theorem enqueue_is_atomic (next : Task → Option Task) (execute : Task → Work)
    (fresh : Along (step capacity) FreshLinks (init todo) acts)
    (reached : run (step capacity) (init todo) acts = some c) :
    ∃ d, run IoContext.step (IoContext.init next execute)
        (emits (step capacity) image (init todo) acts) = some d ∧
      Along IoContext.step Scheduling (IoContext.init next execute)
        (emits (step capacity) image (init todo) acts) ∧
      Refines c d :=
  step_simulates.run fresh (init_refines next execute todo) reached

/-- Two tasks through a pipe of one byte: the second enqueue waits for room with the
mutex held until the loop thread has read the first byte. -/
theorem enqueue_is_atomic_two :
    ∃ c d, run (step 1) (init fun b : Bool => [b.toNat])
        [.link (.producer true), .write, .unlock, .link (.producer false), .readByte, .write,
          .unlock, .dequeueall [], .relock] = some c ∧
      run IoContext.step (IoContext.init (fun _ : Nat => none) fun _ => .receiver false)
        [.schedule 1 false true, .schedule 0 false true, .readByte, .dequeueall,
          .execute false] = some d ∧
      c.queue = [0] ∧ Refines c d := by
  have fresh : Along (step 1) FreshLinks (init fun b : Bool => [b.toNat])
      [.link (.producer true), .write, .unlock, .link (.producer false), .readByte, .write,
        .unlock, .dequeueall [], .relock] := by
    refine along_cons ?_ rfl (along_cons trivial rfl (along_cons trivial rfl (along_cons ?_ rfl
      (along_cons trivial rfl (along_cons trivial rfl (along_cons trivial rfl
        (along_cons trivial rfl (along_cons trivial rfl trivial))))))))
    · rintro _ ⟨⟩ member
      cases member
    · rintro _ ⟨⟩ member
      exact absurd member (by decide)
  obtain ⟨d, explained, -, related⟩ :=
    enqueue_is_atomic (fun _ => none) (fun _ => .receiver false) fresh rfl
  exact ⟨_, d, rfl, explained, rfl, related⟩

end Runs

end PatBase.Runtime.WakeupPipe
