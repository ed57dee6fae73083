/-
# PatBase.Bytes.BufferStorage -- what a write does to the storage

Runs here go on after a call that threw, as a caller that catches the exception
does (`after`).  Of every buffer reached this way:

* `write_strong_guarantee`: a write appends the span and reports its size, or throws
  what a reserve threw and leaves every field as it was;
* `allocations_exact`: a write counts one allocation when the buffer is in view mode
  or its free space is too small, and none otherwise.  The capacity never shrinks, so
  a buffer whose writes always fit counts nothing.
-/
import Mathlib.Data.List.Induction
import PatBase.Bytes.BufferFifo

namespace PatBase.Bytes.Buffer

open PatBase.Lib PatBase.Lib.Effect

set_option autoImplicit false

/-! ## Runs that survive a throw -/

/-- The state a call leaves, whether it completes or throws. -/
def after (w : World) (c : Call) : World :=
  match perform c w with
  | .ok _ w' => w'
  | .error _ w' => w'

/-- The state that a constructor and then the calls leave. -/
def reach (made : Construction) (allocCounter : Option Nat) (calls : List Call) : World :=
  calls.foldl after ⟨made.build, allocCounter⟩

section After

variable {w : World} {q : List UInt8}

/-- The two ways a write ends. -/
theorem after_write_cases (st : Storage) (src : Span) :
    (∃ count, write st src w = .ok count (after w (.write st src))) ∨
      ∃ f, write st src w = .error f (after w (.write st src)) := by
  cases ended : write st src w with
  | ok count w' =>
      have completed : perform (.write st src) w = .ok (.write count) w' :=
        bind_eq_ok.mpr ⟨count, w', ended, rfl⟩
      left
      exact ⟨count, by simp [after, completed]⟩
  | error f w' =>
      have thrown : perform (.write st src) w = .error f w' := bind_eq_error.mpr (.inl ended)
      right
      exact ⟨f, by simp [after, thrown]⟩

/-- A read moves `pos_` and nothing else. -/
theorem after_read (rep : Represents w.buffer q) (dst : Span) :
    ∃ pos, after w (.read dst) = { w with buffer := { w.buffer with pos := pos } } ∧
      Represents (after w (.read dst)).buffer (q.drop (min q.length dst.size)) := by
  obtain ⟨w', reads, kept⟩ := read_spec rep dst
  have completed : perform (.read dst) w = .ok (.read _ _) w' :=
    bind_eq_ok.mpr ⟨_, w', reads, rfl⟩
  have left : after w (.read dst) = w' := by simp [after, completed]
  rw [left]
  refine ⟨w'.buffer.pos, ?_, kept⟩
  unfold read at reads
  obtain ⟨_, _, got, rest⟩ := bind_eq_ok.mp reads
  obtain ⟨rfl, rfl⟩ := get_eq_ok.mp got
  obtain ⟨_, _, first, rest⟩ := bind_eq_ok.mp rest
  obtain ⟨-, rfl⟩ := throwing_eq_ok.mp first
  obtain ⟨_, _, moved, last⟩ := bind_eq_ok.mp rest
  obtain rfl := set_eq_ok.mp moved
  obtain ⟨-, rfl⟩ := pure_eq_ok.mp last
  rfl

theorem after_represents (rep : Represents w.buffer q) (c : Call) :
    ∃ q', Represents (after w c).buffer q' := by
  cases c with
  | read dst =>
      obtain ⟨-, -, kept⟩ := after_read rep dst
      exact ⟨_, kept⟩
  | write st src =>
      obtain ⟨count, completed⟩ | ⟨f, thrown⟩ := after_write_cases (w := w) st src
      · exact ⟨_, (write_spec rep completed).2⟩
      · exact ⟨q, (write_eq_error rep thrown).unchanged ▸ rep⟩

theorem foldl_represents (rep : Represents w.buffer q) (calls : List Call) :
    ∃ q', Represents (calls.foldl after w).buffer q' := by
  induction calls using List.reverseRecOn with
  | nil => exact ⟨q, rep⟩
  | append_singleton calls c ih =>
      obtain ⟨q', rep'⟩ := ih
      rw [List.foldl_append]
      exact after_represents rep' c

end After

theorem reach_represents (made : Construction) (allocCounter : Option Nat) (calls : List Call) :
    Represents (reach made allocCounter calls).buffer
      (reach made allocCounter calls).buffer.unreadBytes := by
  obtain ⟨q, rep⟩ := foldl_represents (w := ⟨made.build, allocCounter⟩) made.represents calls
  exact ⟨rep.pos_le, rfl⟩

/-! ## The strong guarantee -/

/-- Once a field of the buffer has changed, the rest of the write cannot throw. -/
structure Committed (st : Storage) (src : Span) (w : World) : Prop where
  /-- After a view was copied and the flag switched. -/
  afterFlag : ∀ {u w₁ f w₂}, w.buffer.inView = true → ownView st src w = .ok u w₁ →
    (do makeRoom st src; onBuf (·.append st src.1)) w₁ ≠ .error f w₂
  /-- Around the `memmove`. -/
  afterMove : ∀ {u w₁ f w₂}, ownView st src w = .ok u w₁ → compact st w₁ ≠ .error f w₂
  /-- After `pos_` was reset. -/
  afterReset : ∀ {u w₁ v w₂ f w₃}, ownView st src w = .ok u w₁ →
    makeRoom st src w₁ = .ok v w₂ → onBuf (·.append st src.1) w₂ ≠ .error f w₃

theorem committed {st : Storage} {src : Span} {w : World} {q : List UInt8}
    (rep : Represents w.buffer q) : Committed st src w := by
  refine ⟨?flag, ?move, ?reset⟩
  case flag =>
    intro u w₁ f w₂ viewing owned thrown
    obtain ⟨repOwned, owning⟩ := ownView_represents rep owned
    have room := ownView_room viewing owned
    obtain first | ⟨_, _, made, last⟩ := bind_eq_error.mp thrown
    · cases makeRoom_eq_error repOwned owning first with
      | view viewing' _ =>
          rw [owning] at viewing'
          cases viewing'
      | string _ full _ _ => omega
    · exact append_ne_error repOwned owning made last
  case move =>
    intro u w₁ f w₂ owned
    obtain ⟨repOwned, owning⟩ := ownView_represents rep owned
    exact compact_ne_error repOwned owning
  case reset =>
    intro u w₁ v w₂ f w₃ owned made
    obtain ⟨repOwned, owning⟩ := ownView_represents rep owned
    exact append_ne_error repOwned owning made

/-- **The strong guarantee.**  Whatever the allocator answers, a write appends the
span and reports its size, or throws what its one reserve threw and leaves every
field of the buffer as it was. -/
theorem write_strong_guarantee (made : Construction) (allocCounter : Option Nat)
    (calls : List Call) (st : Storage) (src : Span) :
    let w := reach made allocCounter calls
    (match write st src w with
      | .ok count w' => count = src.size ∧ w'.buffer.unreadBytes = w.buffer.unreadBytes ++ src.1
      | .error f w' => w'.buffer = w.buffer ∧ ReserveFailed st src w f w') ∧
      Committed st src w := by
  intro w
  have rep := reach_represents made allocCounter calls
  refine ⟨?_, committed rep⟩
  split
  · rename_i count w' completed
    obtain ⟨whole, appended⟩ := write_spec rep completed
    exact ⟨whole, appended.unread⟩
  · rename_i f w' thrown
    exact ⟨(write_eq_error rep thrown).unchanged, write_reserveFailed rep thrown⟩

/-! ## Allocations -/

/-- What makes a write allocate. -/
def Allocates (src : Span) (b : Buffer) : Prop :=
  b.inView = true ∨ b.capacity - b.size < src.size

instance (src : Span) (b : Buffer) : Decidable (Allocates src b) :=
  inferInstanceAs (Decidable (_ ∨ _))

section Write

variable {st : Storage} {src : Span} {w w' : World} {q : List UInt8}

theorem free_eq (rep : Represents w.buffer q) :
    subSize w.buffer.capacity w.buffer.size = w.buffer.capacity - w.buffer.size := by
  have within := rep.length_le_capacity
  apply subSize_eq
  · rw [rep.size_eq]
    exact within
  · exact w.buffer.capacity_le

/-- Room behind the stored bytes is free space. -/
theorem available_le_free (rep : Represents w.buffer q) (owning : w.buffer.inView = false) :
    w.buffer.available ≤ w.buffer.capacity - w.buffer.size := by
  have stored := rep.length_le_active
  rw [active_of_owning owning] at stored
  rw [available_of_owning owning, capacity_of_owning owning, rep.size_eq, StdString.size]
  omega

/-- Of a string, the free space decides. -/
theorem makeRoom_stores {u : Unit} (rep : Represents w.buffer q)
    (owning : w.buffer.inView = false) (completed : makeRoom st src w = .ok u w') :
    w.buffer.capacity ≤ w'.buffer.capacity ∧
      w'.allocCounter = if w.buffer.capacity - w.buffer.size < src.size then
        (counted w).allocCounter else w.allocCounter := by
  have free := available_le_free rep owning
  have owning' := (makeRoom_represents rep owning completed).2
  have size := rep.size_eq
  have within := rep.length_le_capacity
  rw [capacity_of_owning owning']
  obtain ⟨fits, rfl⟩ | ⟨-, s, -, ⟨fits, larger, rfl⟩ | ⟨short, larger, rfl⟩⟩ :=
    makeRoom_eq_ok rep owning completed
  · rw [if_neg (by omega), capacity_of_owning owning]
    exact ⟨Nat.le_refl _, rfl⟩
  · rw [if_neg (by omega)]
    exact ⟨larger, rfl⟩
  · rw [if_pos (by omega)]
    exact ⟨Nat.le_of_lt (Nat.lt_of_lt_of_le short larger), rfl⟩

/-- The storage after a write that completed. -/
theorem write_stores {count : Nat} (rep : Represents w.buffer q) (nonempty : src.size ≠ 0)
    (completed : write st src w = .ok count w') :
    w'.buffer.inView = false ∧ w.buffer.capacity ≤ w'.buffer.capacity ∧
      w'.allocCounter = if Allocates src w.buffer then (counted w).allocCounter
        else w.allocCounter := by
  unfold write at completed
  rw [if_neg nonempty] at completed
  obtain ⟨_, w₁, owned, rest⟩ := bind_eq_ok.mp completed
  obtain ⟨_, w₂, made, rest⟩ := bind_eq_ok.mp rest
  obtain ⟨_, _, appended, last⟩ := bind_eq_ok.mp rest
  obtain ⟨-, rfl⟩ := pure_eq_ok.mp last
  obtain ⟨s, stored, rfl⟩ := onBuf_eq_ok.mp appended
  obtain ⟨-, kept⟩ := StdString.store_eq_ok stored
  obtain ⟨repOwned, owning⟩ := ownView_represents rep owned
  have owning' := (makeRoom_represents repOwned owning made).2
  obtain ⟨larger, counter⟩ := makeRoom_stores repOwned owning made
  have appendedCapacity : (withBuf w₂ s).buffer.capacity = s.capacity :=
    capacity_of_owning owning'
  rw [← capacity_of_owning owning', ← appendedCapacity] at kept
  refine ⟨owning', ?_⟩
  obtain ⟨mode, rfl⟩ | ⟨viewing, r, content, enough, copied⟩ := ownView_eq_ok owned
  · have short : Allocates src w₁.buffer ↔ w₁.buffer.capacity - w₁.buffer.size < src.size := by
      simp [Allocates, mode]
    refine ⟨Nat.le_trans larger kept, ?_⟩
    simp only [short]
    exact counter
  · -- The copy of a view already has room for the append.
    have room := ownView_room viewing owned
    have free := available_le_free repOwned owning
    have viewed : w.buffer.capacity = w.buffer.bufView.size := by simp [capacity, viewing]
    have ownedCapacity : w₁.buffer.capacity = r.capacity := by
      rw [capacity_of_owning owning, copied]
    rw [if_neg (by omega), copied] at counter
    rw [if_pos (.inl viewing)]
    exact ⟨by omega, counter⟩

/-- A write that threw had counted the allocation it was refused. -/
theorem write_refused {f : Fault} (rep : Represents w.buffer q)
    (thrown : write st src w = .error f w') :
    Allocates src w.buffer ∧ w' = counted w := by
  cases write_reserveFailed rep thrown with
  | view viewing _ => exact ⟨.inl viewing, rfl⟩
  | string _ _ short _ =>
      rw [free_eq rep] at short
      exact ⟨.inr short, rfl⟩

/-- One write counts one allocation or none, whether it completes or throws. -/
theorem after_write_counts (rep : Represents w.buffer q) (nonempty : src.size ≠ 0) :
    (after w (.write st src)).allocCounter =
      if Allocates src w.buffer then w.allocCounter.map (addSize · 1) else w.allocCounter := by
  obtain ⟨count, completed⟩ | ⟨f, thrown⟩ := after_write_cases (w := w) st src
  · exact (write_stores rep nonempty completed).2.2
  · obtain ⟨taken, left⟩ := write_refused rep thrown
    rw [left, if_pos taken]
    rfl

/-- An empty write does nothing. -/
theorem after_write_empty (empty : src.size = 0) : after w (.write st src) = w := by
  have completed : write st src w = .ok 0 w := by
    unfold write
    rw [if_pos empty]
    rfl
  obtain ⟨count, ended⟩ | ⟨f, thrown⟩ := after_write_cases (w := w) st src
  · exact (EStateM.Result.ok.inj (ended.symm.trans completed)).2
  · cases completed.symm.trans thrown

theorem after_capacity (rep : Represents w.buffer q) (c : Call) :
    w.buffer.capacity ≤ (after w c).buffer.capacity := by
  cases c with
  | read dst =>
      obtain ⟨pos, left, -⟩ := after_read rep dst
      have same : (after w (.read dst)).buffer.capacity = w.buffer.capacity := by
        rw [left]
        rfl
      exact Nat.le_of_eq same.symm
  | write st src =>
      by_cases empty : src.size = 0
      · exact Nat.le_of_eq (by rw [after_write_empty empty])
      · obtain ⟨count, completed⟩ | ⟨f, thrown⟩ := after_write_cases (w := w) st src
        · exact (write_stores rep empty completed).2.1
        · exact Nat.le_of_eq (by rw [(write_eq_error rep thrown).unchanged])

/-- String mode is for good. -/
theorem after_owning (rep : Represents w.buffer q) (owning : w.buffer.inView = false) (c : Call) :
    (after w c).buffer.inView = false := by
  cases c with
  | read dst =>
      obtain ⟨pos, left, -⟩ := after_read rep dst
      rw [left]
      exact owning
  | write st src =>
      by_cases empty : src.size = 0
      · rw [after_write_empty empty]
        exact owning
      · obtain ⟨count, completed⟩ | ⟨f, thrown⟩ := after_write_cases (w := w) st src
        · exact (write_stores rep empty completed).1
        · rw [(write_eq_error rep thrown).unchanged]
          exact owning

end Write

section Run

variable {w : World} {q : List UInt8}

theorem foldl_capacity (rep : Represents w.buffer q) (calls : List Call) :
    w.buffer.capacity ≤ (calls.foldl after w).buffer.capacity := by
  induction calls using List.reverseRecOn with
  | nil => exact Nat.le_refl _
  | append_singleton calls c ih =>
      obtain ⟨q', rep'⟩ := foldl_represents rep calls
      rw [List.foldl_append]
      exact Nat.le_trans ih (after_capacity rep' c)

theorem foldl_owning (rep : Represents w.buffer q) (owning : w.buffer.inView = false)
    (calls : List Call) : (calls.foldl after w).buffer.inView = false := by
  induction calls using List.reverseRecOn with
  | nil => exact owning
  | append_singleton calls c ih =>
      obtain ⟨q', rep'⟩ := foldl_represents rep calls
      rw [List.foldl_append]
      exact after_owning rep' ih c

/-- Every write of the run finds that the unread bytes and its span fit `capacity`. -/
def Fits (capacity : Nat) (w : World) (calls : List Call) : Prop :=
  ∀ before st src later, calls = before ++ .write st src :: later →
    (before.foldl after w).buffer.size + src.size ≤ capacity

theorem foldl_counts_nothing (rep : Represents w.buffer q) (owning : w.buffer.inView = false)
    {calls : List Call} (fits : Fits w.buffer.capacity w calls) :
    (calls.foldl after w).allocCounter = w.allocCounter := by
  induction calls using List.reverseRecOn with
  | nil => rfl
  | append_singleton calls c ih =>
      have earlier : Fits w.buffer.capacity w calls := by
        intro before st src later split
        exact fits before st src (later ++ [c]) (by simp [split])
      obtain ⟨q', rep'⟩ := foldl_represents rep calls
      have owning' := foldl_owning rep owning calls
      have larger := foldl_capacity rep calls
      rw [List.foldl_append]
      show (after (calls.foldl after w) c).allocCounter = _
      cases c with
      | read dst =>
          obtain ⟨pos, left, -⟩ := after_read rep' dst
          rw [left]
          exact ih earlier
      | write st src =>
          by_cases empty : src.size = 0
          · rw [after_write_empty empty]
            exact ih earlier
          · have room := fits calls st src [] (by simp)
            have free : ¬ Allocates src (calls.foldl after w).buffer := by
              simp only [Allocates, owning', Bool.false_eq_true, false_or]
              omega
            rw [after_write_counts rep' empty, if_neg free]
            exact ih earlier

end Run

/-- **Allocations are counted exactly.**  A write of at least one byte counts one
allocation or none, never two; its append finds the room it needs, so it does not
allocate whatever the allocator would answer; and since the capacity never shrinks, a
string whose writes all fit its capacity counts nothing. -/
theorem allocations_exact (made : Construction) (allocCounter : Option Nat)
    (calls : List Call) (st : Storage) (src : Span) (more : List Call) :
    let w := reach made allocCounter calls
    (src.size ≠ 0 → (after w (.write st src)).allocCounter =
      if w.buffer.inView = true ∨ w.buffer.capacity - w.buffer.size < src.size then
        w.allocCounter.map (addSize · 1)
      else w.allocCounter) ∧
    (∀ {u w₁ v w₂}, ownView st src w = .ok u w₁ → makeRoom st src w₁ = .ok v w₂ →
      src.size ≤ w₂.buffer.available ∧
        ∀ st', ∃ s, w₂.buffer.buf.append st' src.1 = .ok s ∧
          s.capacity = w₂.buffer.buf.capacity) ∧
    w.buffer.capacity ≤ (more.foldl after w).buffer.capacity ∧
    (w.buffer.inView = false → Fits w.buffer.capacity w more →
      (more.foldl after w).allocCounter = w.allocCounter) := by
  intro w
  have rep := reach_represents made allocCounter calls
  refine ⟨fun nonempty => after_write_counts rep nonempty, ?append, foldl_capacity rep more,
    fun owning fits => foldl_counts_nothing rep owning fits⟩
  case append =>
    intro u w₁ v w₂ owned madeRoom
    obtain ⟨repOwned, owning⟩ := ownView_represents rep owned
    obtain ⟨-, owning'⟩ := makeRoom_represents repOwned owning madeRoom
    have room := makeRoom_fits repOwned owning madeRoom
    refine ⟨?_, fun st' => ⟨_, StdString.store_of_le room, rfl⟩⟩
    rw [available_of_owning owning']
    simp only [List.length_append, StdString.size, Span.size] at *
    omega

end PatBase.Bytes.Buffer
