/-
# PatBase.Runtime.WakeupPipe -- the mutex held across a blocking write

The enqueue of pat/runtime/io_context.cc in smaller steps than `IoContext` takes:
it locks the mutex and links the task, writes one byte to the pipe, and unlocks.
The write end of the pipe is blocking (`UV_NONBLOCK_PIPE` is passed for the read
end only), so the write waits while the pipe is full -- with the mutex held.  The
loop thread, the only reader, needs that mutex to go on after it has read a byte,
and enqueues itself while it executes a task.

The queue is the list that `TaskQueue.Represents` names.  The sections of
`dequeueall` contain no blocking call, so each is one step.

* `deadlock_free_iff_room`: over a run, no state is a deadlock exactly when every
  enqueue took the mutex with room in the pipe, or from another thread while the
  loop thread was in `uv_run`.

`full_pipe_deadlock` is a run of three producers that ends in a deadlock.
-/
import PatBase.Lib.Machine

namespace PatBase.Runtime.WakeupPipe

open PatBase.Lib.Machine

set_option autoImplicit false
set_option linter.unusedSectionVars false

universe u v

/-! ## State -/

inductive Thread (ι : Type u) where
  | loop
  | producer (i : ι)
  deriving DecidableEq

/-- `mutex_`, with how far the `enqueue` that holds it is. -/
inductive Mutex (ι : Type u) where
  | free
  /-- The task is linked; the byte is still to be written. -/
  | linked (owner : Thread ι)
  | written (owner : Thread ι)
  deriving DecidableEq

/-- Where the loop thread is. -/
inductive Loop (Task : Type v) where
  /-- In `uv_run`. -/
  | polling
  /-- In `read_cb` with a byte, before the lock of `dequeueall`. -/
  | locking
  /-- In `task->execute()`, with the tasks it has yet to schedule; with none left,
  before the `lock.lock()` that follows. -/
  | executing (script : List Task)
  deriving DecidableEq

structure State (ι : Type u) (Task : Type v) where
  queue : List Task
  pipe : Nat
  mutex : Mutex ι
  loop : Loop Task
  /-- What each producer thread has yet to schedule. -/
  todo : ι → List Task

inductive Act (ι : Type u) (Task : Type v) where
  /-- The loop thread reads one byte and enters `dequeueall`. -/
  | readByte
  /-- It locks, pops and unlocks; the popped task schedules `script`. -/
  | dequeueall (script : List Task)
  /-- The last lock and unlock of `dequeueall`. -/
  | relock
  /-- `enqueue` of a thread's next task locks and links it. -/
  | link (owner : Thread ι)
  /-- The `::write` of the `enqueue` holding the mutex returns. -/
  | write
  | unlock

variable {ι : Type u} {Task : Type v}

def init (todo : ι → List Task) : State ι Task where
  queue := []
  pipe := 0
  mutex := .free
  loop := .polling
  todo := todo

/-! ## Steps -/

section Steps

variable [DecidableEq ι]

/-- The pop of `dequeueall`. -/
def dequeueall (c : State ι Task) (script : List Task) : State ι Task :=
  match c.queue with
  | [] => { c with loop := .polling }
  | _ :: rest => { c with queue := rest, loop := .executing script }

/-- The mutex is free and the thread has a task to schedule. -/
def link (c : State ι Task) (owner : Thread ι) : Option (State ι Task) :=
  if c.mutex = .free then
    match owner with
    | .loop =>
        match c.loop with
        | .executing (task :: rest) =>
            some { c with
              queue := c.queue ++ [task], mutex := .linked .loop, loop := .executing rest }
        | _ => none
    | .producer i =>
        match c.todo i with
        | [] => none
        | task :: rest =>
            some { c with
              queue := c.queue ++ [task]
              mutex := .linked (.producer i)
              todo := Function.update c.todo i rest }
  else none

/-- One step, over a pipe of `capacity` bytes. -/
def step (capacity : Nat) (c : State ι Task) : Act ι Task → Option (State ι Task)
  | .readByte =>
      match c.loop with
      | .polling => if 0 < c.pipe then some { c with pipe := c.pipe - 1, loop := .locking } else none
      | _ => none
  | .dequeueall script =>
      match c.loop, c.mutex with
      | .locking, .free => some (dequeueall c script)
      | _, _ => none
  | .relock =>
      match c.loop, c.mutex with
      | .executing [], .free => some { c with loop := .polling }
      | _, _ => none
  | .link owner => link c owner
  | .write =>
      match c.mutex with
      | .linked owner =>
          if c.pipe < capacity then some { c with pipe := c.pipe + 1, mutex := .written owner }
          else none
      | _ => none
  | .unlock =>
      match c.mutex with
      | .written _ => some { c with mutex := .free }
      | _ => none

/-- Tasks are pending and no thread can take a step. -/
def Deadlock (capacity : Nat) (c : State ι Task) : Prop :=
  c.queue ≠ [] ∧ ∀ a, step capacity c a = none

end Steps

/-! ## The wake-up account -/

/-- The byte the loop thread has read and not yet dequeued for. -/
def State.inHand (c : State ι Task) : Nat :=
  match c.loop with
  | .locking => 1
  | _ => 0

/-- The task linked whose byte is still to be written. -/
def State.unwritten (c : State ι Task) : Nat :=
  match c.mutex with
  | .linked _ => 1
  | _ => 0

/-- Every pending task has a byte in the pipe, in hand or about to be written. -/
structure Accounted (capacity : Nat) (c : State ι Task) : Prop where
  count : c.queue.length = c.pipe + c.inHand + c.unwritten
  bound : c.pipe ≤ capacity

/-- An `enqueue` that holds the mutex can write, or the loop thread can still read. -/
def Room (capacity : Nat) (c : State ι Task) (owner : Thread ι) : Prop :=
  c.pipe < capacity ∨ (owner ≠ .loop ∧ c.loop = .polling)

/-- The mutex is taken for an enqueue only with room. -/
def RoomToWrite (capacity : Nat) (c : State ι Task) : Act ι Task → Prop
  | .link owner => Room capacity c owner
  | _ => True

section StepLemmas

variable [DecidableEq ι] {capacity : Nat} {c c' : State ι Task} {a : Act ι Task}
  {owner : Thread ι}

/-- Linking takes the free mutex and queues one task. -/
theorem link_eq_some (taken : link c owner = some c') :
    c.mutex = .free ∧ c'.mutex = .linked owner ∧ c'.pipe = c.pipe ∧
      (∃ task, c'.queue = c.queue ++ [task]) ∧
      (owner = .loop → ∃ task rest, c.loop = .executing (task :: rest) ∧
        c'.loop = .executing rest) ∧
      (owner ≠ .loop → c'.loop = c.loop) := by
  by_cases free : c.mutex = .free
  · cases owner with
    | loop =>
        simp only [link, free, if_true] at taken
        split at taken
        · rename_i task rest at_
          cases taken
          exact ⟨free, rfl, rfl, ⟨task, rfl⟩, fun _ => ⟨task, rest, at_, rfl⟩,
            fun other => absurd rfl other⟩
        · cases taken
    | producer i =>
        simp only [link, free, if_true] at taken
        split at taken
        · cases taken
        · rename_i task rest scheduled
          cases taken
          exact ⟨free, rfl, rfl, ⟨task, rfl⟩, nofun, fun _ => rfl⟩
  · simp only [link, free, if_false] at taken
    cases taken

theorem link_inHand (taken : link c owner = some c') : c'.inHand = c.inHand := by
  obtain ⟨-, -, -, -, byLoop, byOther⟩ := link_eq_some taken
  by_cases self : owner = .loop
  · obtain ⟨task, rest, before, after⟩ := byLoop self
    simp only [State.inHand, before, after]
  · simp only [State.inHand, byOther self]

/-- What each action does, and what holds where it is enabled. -/
inductive Step (capacity : Nat) (c : State ι Task) : Act ι Task → State ι Task → Prop where
  | readByte (polling : c.loop = .polling) (byte : 0 < c.pipe) :
      Step capacity c .readByte { c with pipe := c.pipe - 1, loop := .locking }
  | dequeueall (script : List Task) (locking : c.loop = .locking) (free : c.mutex = .free) :
      Step capacity c (.dequeueall script) (dequeueall c script)
  | relock (executing : c.loop = .executing []) (free : c.mutex = .free) :
      Step capacity c .relock { c with loop := .polling }
  | link (owner : Thread ι) (c' : State ι Task) (links : link c owner = some c') :
      Step capacity c (.link owner) c'
  | write (owner : Thread ι) (linked : c.mutex = .linked owner) (room : c.pipe < capacity) :
      Step capacity c .write { c with pipe := c.pipe + 1, mutex := .written owner }
  | unlock (owner : Thread ι) (written : c.mutex = .written owner) :
      Step capacity c .unlock { c with mutex := .free }

theorem Step.of_step (taken : step capacity c a = some c') : Step capacity c a c' := by
  cases a with
  | readByte =>
      simp only [step] at taken
      split at taken
      · rename_i polling
        simp only [Option.ite_none_right_eq_some, Option.some.injEq] at taken
        obtain ⟨byte, rfl⟩ := taken
        exact .readByte polling byte
      · cases taken
  | dequeueall script =>
      simp only [step] at taken
      split at taken
      · rename_i locking free
        cases taken
        exact .dequeueall script locking free
      · cases taken
  | relock =>
      simp only [step] at taken
      split at taken
      · rename_i executing free
        cases taken
        exact .relock executing free
      · cases taken
  | link owner => exact .link owner c' taken
  | write =>
      simp only [step] at taken
      split at taken
      · rename_i owner linked
        simp only [Option.ite_none_right_eq_some, Option.some.injEq] at taken
        obtain ⟨room, rfl⟩ := taken
        exact .write owner linked room
      · cases taken
  | unlock =>
      simp only [step] at taken
      split at taken
      · rename_i owner written
        cases taken
        exact .unlock owner written
      · cases taken

/-- **No step loses a wake-up byte.** -/
theorem step_accounted (acc : Accounted capacity c) (taken : step capacity c a = some c') :
    Accounted capacity c' := by
  obtain ⟨count, bound⟩ := acc
  cases Step.of_step taken with
  | readByte polling byte =>
      have idle : c.inHand = 0 := by simp only [State.inHand, polling]
      refine ⟨?_, Nat.le_trans (Nat.sub_le _ _) bound⟩
      show c.queue.length = c.pipe - 1 + 1 + c.unwritten
      omega
  | dequeueall script locking free =>
      have hand : c.inHand = 1 := by simp only [State.inHand, locking]
      unfold dequeueall
      split
      · rename_i empty
        rw [empty, hand, List.length_nil] at count
        omega
      · rename_i task rest popped
        rw [popped, hand, List.length_cons] at count
        refine ⟨?_, bound⟩
        show rest.length = c.pipe + 0 + c.unwritten
        omega
  | relock executing free =>
      have idle : c.inHand = 0 := by simp only [State.inHand, executing]
      rw [idle] at count
      exact ⟨count, bound⟩
  | link owner _ links =>
      obtain ⟨free, linked, pipe, ⟨task, queue⟩, -⟩ := link_eq_some links
      have before : c.unwritten = 0 := by simp only [State.unwritten, free]
      have after : c'.unwritten = 1 := by simp only [State.unwritten, linked]
      refine ⟨?_, pipe ▸ bound⟩
      rw [queue, pipe, link_inHand links, after, List.length_append, List.length_singleton]
      omega
  | write owner linked room =>
      have before : c.unwritten = 1 := by simp only [State.unwritten, linked]
      refine ⟨?_, room⟩
      show c.queue.length = c.pipe + 1 + c.inHand + 0
      omega
  | unlock owner written =>
      have before : c.unwritten = 0 := by simp only [State.unwritten, written]
      rw [before] at count
      exact ⟨count, bound⟩

/-- With the mutex held before the write, a full pipe and the loop thread outside
`uv_run`, no thread can move. -/
theorem stuck (owner : Thread ι) (linked : c.mutex = .linked owner) (full : ¬ c.pipe < capacity)
    (busy : c.loop ≠ .polling) (a : Act ι Task) : step capacity c a = none := by
  cases a with
  | readByte =>
      cases at_ : c.loop with
      | polling => exact absurd at_ busy
      | locking => simp only [step, at_]
      | executing script => simp only [step, at_]
  | dequeueall script =>
      simp only [step]
      split
      · rename_i free
        cases linked.symm.trans free
      · rfl
  | relock =>
      simp only [step]
      split
      · rename_i free
        cases linked.symm.trans free
      · rfl
  | link other => simp [step, link, linked]
  | write => simp only [step, linked, full, if_false]
  | unlock => simp only [step, linked]

/-- An enqueue that takes the mutex without room ends in a deadlock there. -/
theorem link_deadlock (taken : step capacity c (.link owner) = some c')
    (none_ : ¬ Room capacity c owner) : Deadlock capacity c' := by
  obtain ⟨free, linked, pipe, ⟨task, queue⟩, byLoop, byOther⟩ := link_eq_some taken
  rw [Room, not_or] at none_
  obtain ⟨full, away⟩ := none_
  refine ⟨by simp [queue], stuck owner linked (pipe ▸ full) ?_⟩
  by_cases self : owner = .loop
  · obtain ⟨task, rest, -, executing⟩ := byLoop self
    simp [executing]
  · rw [byOther self]
    exact fun polling => away ⟨self, polling⟩

/-- The enqueue holding the mutex has room. -/
def Roomy (capacity : Nat) (c : State ι Task) : Prop :=
  ∀ owner, c.mutex = .linked owner → Room capacity c owner

theorem step_roomy (acc : Accounted capacity c)
    (room : RoomToWrite capacity c a) (taken : step capacity c a = some c') :
    Roomy capacity c' := by
  intro owner holds
  cases Step.of_step taken with
  | readByte polling byte =>
      have bound := acc.bound
      left
      show c.pipe - 1 < capacity
      omega
  | dequeueall script locking free =>
      have same : (dequeueall c script).mutex = c.mutex := by
        unfold dequeueall
        split
        · rfl
        · rfl
      cases free.symm.trans (same.symm.trans holds)
  | relock executing free => cases free.symm.trans holds
  | link other _ links =>
      obtain ⟨free, linked, pipe, -, byLoop, byOther⟩ := link_eq_some links
      cases linked.symm.trans holds
      rw [Room, pipe]
      rcases room with space | ⟨self, polling⟩
      · exact .inl space
      · exact .inr ⟨self, (byOther self).trans polling⟩
  | write other linked room => cases holds
  | unlock other written => cases holds

/-- With room, some thread can move while tasks are pending. -/
theorem enabled_of_roomy (space : 0 < capacity) (acc : Accounted capacity c)
    (roomy : Roomy capacity c) (pending : c.queue ≠ []) : ∃ a, step capacity c a ≠ none := by
  have count := acc.count
  have waiting : 0 < c.queue.length := List.length_pos_iff.mpr pending
  cases held : c.mutex with
  | written owner => exact ⟨.unlock, by simp [step, held]⟩
  | linked owner =>
      by_cases room : c.pipe < capacity
      · exact ⟨.write, by simp [step, held, room]⟩
      · rcases roomy owner held with room' | ⟨-, polling⟩
        · exact absurd room' room
        · have byte : 0 < c.pipe := by omega
          exact ⟨.readByte, by simp [step, polling, byte]⟩
  | free =>
      have noneUnwritten : c.unwritten = 0 := by simp only [State.unwritten, held]
      cases at_ : c.loop with
      | polling =>
          have idle : c.inHand = 0 := by simp only [State.inHand, at_]
          have byte : 0 < c.pipe := by omega
          exact ⟨.readByte, by simp [step, at_, byte]⟩
      | locking => exact ⟨.dequeueall [], by simp [step, at_, held]⟩
      | executing script =>
          cases script with
          | nil => exact ⟨.relock, by simp [step, at_, held]⟩
          | cons task rest => exact ⟨.link .loop, by simp [step, link, at_, held]⟩

end StepLemmas

/-! ## Runs -/

section Runs

variable [DecidableEq ι] {capacity : Nat} {todo : ι → List Task} {acts : List (Act ι Task)}
  {c : State ι Task}

/-- **When scheduling cannot deadlock**: no state of a run is a deadlock exactly when
each of its enqueues locked the mutex with room in the pipe, or from a producer
thread while the loop thread was in `uv_run`. -/
theorem deadlock_free_iff_room (space : 0 < capacity)
    (reached : run (step capacity) (init todo) acts = some c) :
    (∀ d, Visits (step capacity) (init todo) acts d → ¬ Deadlock capacity d) ↔
      Along (step capacity) (RoomToWrite capacity) (init todo) acts := by
  constructor
  · refine along_of_visited (fun earlier s a s' prior safe taken after => ?_) reached
    cases a with
    | link owner =>
        by_contra none_
        exact after (link_deadlock taken none_)
    | _ => trivial
  · intro room d visited ⟨pending, none_⟩
    have kept : Accounted capacity d ∧ Roomy capacity d := by
      refine room.invariant_visited (I := fun c => Accounted capacity c ∧ Roomy capacity c) ?_
        ⟨⟨rfl, Nat.zero_le _⟩, nofun⟩ visited
      rintro s a s' ⟨acc, -⟩ roomStep taken
      exact ⟨step_accounted acc taken, step_roomy acc roomStep taken⟩
    obtain ⟨a, enabled⟩ := enabled_of_roomy space kept.1 kept.2 pending
    exact enabled (none_ a)

/-- Two tasks through a pipe of one byte. -/
theorem deadlock_free_iff_room_two :
    (∀ d, Visits (step 1) (init fun _ : Bool => ['a'])
        [.link (.producer true), .write, .unlock, .link (.producer false), .readByte] d →
        ¬ Deadlock 1 d) ↔
      Along (step 1) (RoomToWrite 1) (init fun _ : Bool => ['a'])
        [.link (.producer true), .write, .unlock, .link (.producer false), .readByte] :=
  deadlock_free_iff_room (by decide) rfl

/-- A pipe of one byte: the loop thread has read the first byte and waits for the
mutex, which the third enqueue holds while it waits for room. -/
theorem full_pipe_deadlock :
    ∃ c, run (step 1) (init fun _ : Fin 3 => ['a'])
        [.link (.producer 0), .write, .unlock, .readByte, .link (.producer 1), .write, .unlock,
          .link (.producer 2)] = some c ∧
      c.queue = ['a', 'a', 'a'] ∧ Deadlock 1 c :=
  ⟨_, rfl, rfl, nofun, stuck (.producer 2) rfl (by decide) nofun⟩

end Runs

end PatBase.Runtime.WakeupPipe
