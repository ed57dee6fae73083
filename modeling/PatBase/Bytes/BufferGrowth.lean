/-
# PatBase.Bytes.BufferGrowth -- the memory of a buffer that is used for long

`write` compacts before it allocates, and allocates for the unread bytes and the span
only (of a view, for all of it).  So the memory a buffer holds is bounded by the most
that one write has ever asked room for, and since each allocation makes the string
larger, so is their number -- however long the buffer is used and however much has gone
through it (`allocations_bounded`).

An allocator may give more than it is asked for; `Modest g` bounds what by `g`.
-/
import PatBase.Bytes.BufferStorage

namespace PatBase.Bytes.Buffer

open PatBase.Lib PatBase.Lib.Effect

set_option autoImplicit false

/-- The allocator gives at most `g n` bytes where `n` are asked for. -/
structure Modest (g : Nat → Nat) (st : Storage) : Prop where
  mono : ∀ {m n : Nat}, m ≤ n → g m ≤ g n
  sso : st.sso.1 ≤ g 0
  grow : ∀ site capacity needed granted, st.grow site capacity needed = .ok granted →
    granted.1 ≤ g needed

/-- The bytes a write asks room for, if it asks. -/
def needed (b : Buffer) (src : Span) : Nat :=
  (if b.inView then b.bufView.size else b.size) + src.size

/-! ## One write -/

section Write

variable {g : Nat → Nat} {st : Storage} {src : Span} {w w' : World} {q : List UInt8} {u : Unit}

theorem reserve_capacity {n : Nat} {s r : StdString} (modest : Modest g st)
    (reserved : s.reserve st n = .ok r) : r.capacity ≤ max s.capacity (g n) := by
  unfold StdString.reserve StdString.ensure at reserved
  split at reserved
  · cases reserved
  · rename_i grown answer
    cases reserved
    split at answer
    · cases answer
      exact Nat.le_max_left _ _
    · split at answer
      · cases answer
      · rename_i granted given
        cases answer
        exact Nat.le_trans (modest.grow _ _ _ _ given) (Nat.le_max_right _ _)

/-- What fits is stored where it is. -/
theorem store_capacity {site : Site} {bytes : List UInt8} {s r : StdString}
    (fits : bytes.length ≤ s.capacity) (stored : s.store st site bytes = .ok r) :
    r.capacity = s.capacity := by
  rw [StdString.store_of_le fits] at stored
  cases stored
  rfl

theorem ownView_capacity (modest : Modest g st) (completed : ownView st src w = .ok u w') :
    w.buffer.buf.capacity ≤ w'.buffer.buf.capacity ∧
      w'.buffer.buf.capacity ≤ max w.buffer.buf.capacity (g (needed w.buffer src)) := by
  unfold ownView at completed
  obtain ⟨_, _, got, rest⟩ := bind_eq_ok.mp completed
  obtain ⟨rfl, rfl⟩ := get_eq_ok.mp got
  split at rest
  · rename_i viewing
    obtain ⟨_, _, count, rest⟩ := bind_eq_ok.mp rest
    obtain rfl := countAllocation_eq_ok.mp count
    obtain ⟨_, _, first, rest⟩ := bind_eq_ok.mp rest
    obtain ⟨room, reserved, rfl⟩ := onBuf_eq_ok.mp first
    obtain ⟨_, _, second, last⟩ := bind_eq_ok.mp rest
    obtain ⟨s, assigned, rfl⟩ := onBuf_eq_ok.mp second
    obtain rfl := modify_eq_ok.mp last
    have large := reserve_capacity modest reserved
    obtain ⟨-, enough, larger⟩ := StdString.reserve_eq_ok reserved
    rw [addSize_eq w.buffer.bufView.size_le src.size_le] at enough large
    have same : s.capacity = room.capacity :=
      store_capacity (Nat.le_of_add_right_le enough) assigned
    have asked : needed w.buffer src = w.buffer.bufView.size + src.size := by
      simp [needed, viewing]
    show w.buffer.buf.capacity ≤ s.capacity ∧ s.capacity ≤ _
    rw [same, asked]
    exact ⟨larger, large⟩
  · obtain ⟨-, rfl⟩ := pure_eq_ok.mp rest
    exact ⟨Nat.le_refl _, Nat.le_max_left _ _⟩

theorem reallocate_capacity (modest : Modest g st)
    (rep : Represents w.buffer q) (owning : w.buffer.inView = false)
    (completed : reallocate st src w = .ok u w') :
    w'.buffer.buf.capacity ≤ g (q.length + src.size) := by
  unfold reallocate at completed
  obtain ⟨_, _, count, rest⟩ := bind_eq_ok.mp completed
  obtain rfl := countAllocation_eq_ok.mp count
  obtain ⟨_, _, got, rest⟩ := bind_eq_ok.mp rest
  obtain ⟨rfl, rfl⟩ := get_eq_ok.mp got
  obtain ⟨room, _, first, rest⟩ := bind_eq_ok.mp rest
  obtain ⟨reserved, rfl⟩ := throwing_eq_ok.mp first
  obtain ⟨unread, _, second, rest⟩ := bind_eq_ok.mp rest
  obtain ⟨copied, rfl⟩ := throwing_eq_ok.mp second
  obtain ⟨s, _, third, last⟩ := bind_eq_ok.mp rest
  obtain ⟨assigned, rfl⟩ := throwing_eq_ok.mp third
  obtain ⟨_, ⟨⟩, rfl⟩ := onBuf_eq_ok.mp last
  have whole := rep.range_eq (Nat.le_refl q.length)
  rw [List.take_length, active_of_owning owning, ← rep.size_eq] at whole
  obtain rfl : q = unread := Except.ok.inj (whole.symm.trans copied)
  have large := reserve_capacity modest reserved
  obtain ⟨-, enough, -⟩ := StdString.reserve_eq_ok reserved
  have sum : addSize w.buffer.size src.size = q.length + src.size := by
    rw [rep.size_eq]
    exact addSize_eq rep.length_le src.size_le
  rw [show addSize (counted w).buffer.size src.size = q.length + src.size from sum]
    at enough large
  have same : s.capacity = room.capacity := store_capacity (Nat.le_of_add_right_le enough) assigned
  have small : (StdString.empty st).capacity ≤ g (q.length + src.size) :=
    Nat.le_trans modest.sso (modest.mono (Nat.zero_le _))
  show s.capacity ≤ _
  rw [same]
  exact Nat.le_trans large (Nat.max_le.mpr ⟨small, Nat.le_refl _⟩)

theorem compact_capacity (rep : Represents w.buffer q) (owning : w.buffer.inView = false)
    (completed : compact st w = .ok u w') :
    w'.buffer.buf.capacity = w.buffer.buf.capacity := by
  unfold compact at completed
  obtain ⟨_, _, got, rest⟩ := bind_eq_ok.mp completed
  obtain ⟨rfl, rfl⟩ := get_eq_ok.mp got
  obtain ⟨_, _, first, last⟩ := bind_eq_ok.mp rest
  obtain ⟨moved, movement, rfl⟩ := onBuf_eq_ok.mp first
  obtain ⟨s, resized, rfl⟩ := onBuf_eq_ok.mp last
  obtain ⟨bytes, sameCapacity⟩ := StdString.memmove_eq_ok movement
  have length : moved.bytes.length = w.buffer.buf.bytes.length := by
    have stored := rep.length_le_active
    have whole := congrArg List.length rep.unread
    rw [active_of_owning owning] at stored whole
    rw [rep.size_eq] at bytes
    rw [bytes]
    simp only [List.length_append, List.length_take, List.length_drop] at whole ⊢
    omega
  have fits : (moved.bytes.take w.buffer.size ++
      List.replicate (w.buffer.size - moved.size) 0).length ≤ moved.capacity := by
    have stored := rep.length_le_active
    have room := moved.size_le_capacity
    rw [active_of_owning owning] at stored
    simp only [List.length_append, List.length_take, List.length_replicate, StdString.size]
    rw [rep.size_eq]
    omega
  have same : s.capacity = moved.capacity := store_capacity fits resized
  exact same.trans sameCapacity

theorem makeRoom_capacity (modest : Modest g st)
    (rep : Represents w.buffer q) (owning : w.buffer.inView = false)
    (completed : makeRoom st src w = .ok u w') :
    w'.buffer.buf.capacity ≤ max w.buffer.buf.capacity (g (q.length + src.size)) := by
  unfold makeRoom at completed
  obtain ⟨_, _, got, rest⟩ := bind_eq_ok.mp completed
  obtain ⟨rfl, rfl⟩ := get_eq_ok.mp got
  split at rest
  · obtain ⟨_, _, moved, last⟩ := bind_eq_ok.mp rest
    obtain rfl := modify_eq_ok.mp last
    unfold copyUnread at moved
    obtain ⟨_, _, got, rest⟩ := bind_eq_ok.mp moved
    obtain ⟨rfl, rfl⟩ := get_eq_ok.mp got
    split at rest
    · have fresh := reallocate_capacity modest rep owning rest
      exact Nat.le_trans fresh (Nat.le_max_right _ _)
    · have kept := compact_capacity rep owning rest
      exact Nat.le_trans (Nat.le_of_eq kept) (Nat.le_max_left _ _)
  · obtain ⟨-, rfl⟩ := pure_eq_ok.mp rest
    exact Nat.le_max_left _ _

theorem write_capacity {count : Nat} (modest : Modest g st)
    (rep : Represents w.buffer q) (completed : write st src w = .ok count w') :
    w.buffer.buf.capacity ≤ w'.buffer.buf.capacity ∧
      w'.buffer.buf.capacity ≤ max w.buffer.buf.capacity (g (needed w.buffer src)) := by
  unfold write at completed
  split at completed
  · obtain ⟨-, rfl⟩ := pure_eq_ok.mp completed
    exact ⟨Nat.le_refl _, Nat.le_max_left _ _⟩
  · obtain ⟨_, w₁, owned, rest⟩ := bind_eq_ok.mp completed
    obtain ⟨_, w₂, made, rest⟩ := bind_eq_ok.mp rest
    obtain ⟨_, _, appended, last⟩ := bind_eq_ok.mp rest
    obtain ⟨-, rfl⟩ := pure_eq_ok.mp last
    obtain ⟨s, stored, rfl⟩ := onBuf_eq_ok.mp appended
    obtain ⟨repOwned, owning⟩ := ownView_represents rep owned
    obtain ⟨larger, first⟩ := ownView_capacity modest owned
    have second := makeRoom_capacity modest repOwned owning made
    have owning' := (makeRoom_represents repOwned owning made).2
    have larger' := (makeRoom_stores repOwned owning made).1
    rw [capacity_of_owning owning, capacity_of_owning owning'] at larger'
    -- the append finds its room
    have room := makeRoom_fits repOwned owning made
    have same : s.capacity = w₂.buffer.buf.capacity := store_capacity room stored
    have asked : q.length + src.size ≤ needed w.buffer src := by
      have stored := rep.length_le_active
      cases mode : w.buffer.inView with
      | true =>
          simp only [active, mode, if_true] at stored
          simp only [needed, mode, if_true, Span.size]
          omega
      | false => simp [needed, mode, rep.size_eq]
    have small := modest.mono asked
    show w.buffer.buf.capacity ≤ s.capacity ∧ s.capacity ≤ _
    omega

/-- A write that allocates copies a view or makes the string larger. -/
theorem write_counts {count : Nat} (rep : Represents w.buffer q) (nonempty : src.size ≠ 0)
    (completed : write st src w = .ok count w') :
    w'.allocCounter = w.allocCounter ∨ w'.allocCounter = w.allocCounter.map (addSize · 1) ∧
      (w.buffer.inView = false → w.buffer.buf.capacity < w'.buffer.buf.capacity) := by
  obtain ⟨owning', larger, counter⟩ := write_stores rep nonempty completed
  by_cases allocates : Allocates src w.buffer
  · rw [if_pos allocates] at counter
    refine .inr ⟨counter, fun owning => ?_⟩
    have short : w.buffer.capacity - w.buffer.size < src.size := by
      rcases allocates with viewing | short
      · cases owning.symm.trans viewing
      · exact short
    have stored := (write_spec rep completed).2.length_le_capacity
    have before := rep.length_le_capacity
    rw [capacity_of_owning owning', List.length_append] at stored
    rw [capacity_of_owning owning, rep.size_eq, Span.size] at short
    rw [capacity_of_owning owning] at before
    omega
  · rw [if_neg allocates] at counter
    exact .inl counter

end Write

/-! ## Runs -/

/-- The call is a write that throws. -/
def throws (c : Call) (w : World) : Bool :=
  match perform c w with
  | .ok _ _ => false
  | .error _ _ => true

/-- The writes of a run that threw. -/
def refused (w : World) : List Call → Nat
  | [] => 0
  | c :: later => (if throws c w then 1 else 0) + refused (after w c) later

/-- Every write of the run has an allocator like that, and asks room for at most `peak`
bytes. -/
def Peaks (g : Nat → Nat) (peak : Nat) (w : World) : List Call → Prop
  | [] => True
  | .read dst :: later => Peaks g peak (after w (.read dst)) later
  | .write st src :: later =>
      Modest g st ∧ needed w.buffer src ≤ peak ∧ Peaks g peak (after w (.write st src)) later

/-- 1 if the view of `w₀` has been copied into a string by `w`. -/
def viewCopied (w₀ w : Buffer) : Nat :=
  if w₀.inView = true ∧ w.inView = false then 1 else 0

/-- What a run in which `thrown` writes threw has made of the memory of `w₀`: its string
is bounded, and each allocation that was granted, but that of a view, has made it
larger. -/
structure Grown (g : Nat → Nat) (peak : Nat) (w₀ : World) (thrown : Nat) (w : World) : Prop where
  capacity : w.buffer.buf.capacity ≤ max w₀.buffer.buf.capacity (g peak)
  view : w.buffer.inView = true → w₀.buffer.inView = true
  count : ∃ n, w.allocCounter = some n ∧
    n + w₀.buffer.buf.capacity ≤
      w.buffer.buf.capacity + thrown + viewCopied w₀.buffer w.buffer

section Run

variable {g : Nat → Nat} {peak thrown : Nat} {w₀ w w' : World} {q : List UInt8}

theorem Grown.refl (zero : w₀.allocCounter = some 0) : Grown g peak w₀ 0 w₀ where
  capacity := Nat.le_max_left _ _
  view viewing := viewing
  count := ⟨0, zero, by omega⟩

theorem Grown.read (grown : Grown g peak w₀ thrown w) (rep : Represents w.buffer q) (dst : Span) :
    Grown g peak w₀ thrown (after w (.read dst)) := by
  obtain ⟨pos, left, -⟩ := after_read rep dst
  rw [left]
  exact ⟨grown.capacity, grown.view, grown.count⟩

/-- The counter wraps, so it never shows more than was counted. -/
theorem addSize_le (a b : Nat) : addSize a b ≤ a + b :=
  Nat.mod_le _ _

theorem Grown.written {st : Storage} {src : Span} {count : Nat}
    (grown : Grown g peak w₀ thrown w) (rep : Represents w.buffer q) (modest : Modest g st)
    (small : needed w.buffer src ≤ peak) (nonempty : src.size ≠ 0)
    (completed : write st src w = .ok count w') : Grown g peak w₀ thrown w' := by
  obtain ⟨owning', -⟩ := write_stores rep nonempty completed
  obtain ⟨larger, large⟩ := write_capacity modest rep completed
  have peaked := modest.mono small
  have old := grown.capacity
  refine ⟨by omega, fun viewing => ?_, ?_⟩
  · cases owning'.symm.trans viewing
  obtain ⟨n, counter, bound⟩ := grown.count
  rcases write_counts rep nonempty completed with same | ⟨more, strictly⟩
  · have copied : viewCopied w₀.buffer w.buffer ≤ viewCopied w₀.buffer w'.buffer := by
      unfold viewCopied
      rw [owning']
      split
      · rename_i switched
        exact Nat.le_of_eq (if_pos ⟨switched.1, rfl⟩).symm
      · exact Nat.zero_le _
    exact ⟨n, same.trans counter, by omega⟩
  · have most := addSize_le n 1
    refine ⟨addSize n 1, by rw [more, counter]; rfl, ?_⟩
    cases mode : w.buffer.inView with
    | true =>
        -- the one allocation that need not make the string larger
        have before : viewCopied w₀.buffer w.buffer = 0 := by simp [viewCopied, mode]
        have copied : viewCopied w₀.buffer w'.buffer = 1 := by
          simp [viewCopied, grown.view mode, owning']
        omega
    | false =>
        have strict := strictly mode
        have copied : viewCopied w₀.buffer w'.buffer = viewCopied w₀.buffer w.buffer := by
          simp [viewCopied, mode, owning']
        omega

theorem Grown.refused {st : Storage} {src : Span} {f : Fault}
    (grown : Grown g peak w₀ thrown w) (rep : Represents w.buffer q)
    (refusal : write st src w = .error f w') : Grown g peak w₀ (1 + thrown) w' := by
  obtain ⟨-, rfl⟩ := write_refused rep refusal
  refine ⟨grown.capacity, grown.view, ?_⟩
  obtain ⟨n, counter, bound⟩ := grown.count
  have most := addSize_le n 1
  refine ⟨addSize n 1, by simp only [counted, counter, Option.map_some], ?_⟩
  show addSize n 1 + w₀.buffer.buf.capacity ≤
    w.buffer.buf.capacity + (1 + thrown) + viewCopied w₀.buffer w.buffer
  omega

theorem throws_write {st : Storage} {src : Span} :
    throws (.write st src) w = match write st src w with
      | .ok _ _ => false
      | .error _ _ => true := by
  cases ended : write st src w with
  | ok count w' =>
      have completed : perform (.write st src) w = .ok (.write count) w' :=
        bind_eq_ok.mpr ⟨count, w', ended, rfl⟩
      simp only [throws, completed]
  | error f w' =>
      have thrown : perform (.write st src) w = .error f w' := bind_eq_error.mpr (.inl ended)
      simp only [throws, thrown]

theorem throws_read (rep : Represents w.buffer q) (dst : Span) : throws (.read dst) w = false := by
  obtain ⟨w', reads, -⟩ := read_spec rep dst
  have completed : perform (.read dst) w = .ok (.read _ _) w' :=
    bind_eq_ok.mpr ⟨_, w', reads, rfl⟩
  simp only [throws, completed]

theorem Grown.write {st : Storage} {src : Span} (grown : Grown g peak w₀ thrown w)
    (rep : Represents w.buffer q) (modest : Modest g st) (small : needed w.buffer src ≤ peak) :
    Grown g peak w₀ ((if throws (.write st src) w then 1 else 0) + thrown)
      (after w (.write st src)) := by
  rw [throws_write]
  rcases after_write_cases (w := w) st src with ⟨count, completed⟩ | ⟨f, refusal⟩
  · rw [completed, if_neg Bool.false_ne_true, Nat.zero_add]
    by_cases empty : src.size = 0
    · rw [after_write_empty empty]
      exact grown
    · exact grown.written rep modest small empty completed
  · rw [refusal, if_pos rfl]
    exact grown.refused rep refusal

theorem Grown.run (grown : Grown g peak w₀ thrown w) (rep : Represents w.buffer q)
    {calls : List Call} (peaks : Peaks g peak w calls) :
    Grown g peak w₀ (thrown + Buffer.refused w calls) (calls.foldl after w) := by
  induction calls generalizing w thrown q with
  | nil => exact grown
  | cons c later ih =>
      obtain ⟨q', rep'⟩ := after_represents rep c
      cases c with
      | read dst =>
          have rest := ih (grown.read rep dst) rep' peaks
          rw [Buffer.refused, throws_read rep, if_neg Bool.false_ne_true, Nat.zero_add]
          exact rest
      | write st src =>
          obtain ⟨modest, small, rest⟩ := peaks
          have further := ih (grown.write rep modest small) rep' rest
          rw [Buffer.refused, Nat.add_left_comm, ← Nat.add_assoc]
          exact further

end Run

/-- **The memory of a buffer is bounded, and so are its allocations.**  Let no write of a
run ask room for more than `peak` bytes: the unread ones, or all of a view, and the span.
Then the string never holds more than the allocator gives for `peak`, unless it began
larger; and every allocation counted has made the string larger, but those that were
refused and the copy of a view.  However long the run is, the counter is at most how
much larger the string became, the refusals, and one. -/
theorem allocations_bounded {g : Nat → Nat} {peak : Nat} (made : Construction)
    (calls : List Call) (peaks : Peaks g peak ⟨made.build, some 0⟩ calls) :
    let w := reach made (some 0) calls
    w.buffer.buf.capacity ≤ max made.build.buf.capacity (g peak) ∧
      ∃ n, w.allocCounter = some n ∧
        n + made.build.buf.capacity ≤ w.buffer.buf.capacity +
          refused ⟨made.build, some 0⟩ calls + viewCopied made.build w.buffer := by
  intro w
  have start : Grown g peak ⟨made.build, some 0⟩ 0 ⟨made.build, some 0⟩ := .refl rfl
  have grown := start.run made.represents peaks
  rw [Nat.zero_add] at grown
  exact ⟨grown.capacity, grown.count⟩

/-- What `Storage.exact` gives. -/
theorem exact_modest : Modest (max 15) .exact where
  mono le := by omega
  sso := Nat.le_max_left _ _
  grow site capacity needed granted given := by
    simp only [Storage.exact] at given
    split at given
    · cases given
      exact Nat.le_max_right _ _
    · cases given

theorem eight_fit : (List.replicate 8 (7 : UInt8)).length ≤ maxSize := by decide

/-- Eight bytes are written and read, three times over, and then sixteen written. -/
def cycled : List Call :=
  let block : Span := ⟨List.replicate 8 7, eight_fit⟩
  [.write .exact block, .read block, .write .exact block, .read block, .write .exact block,
    .read block, .write .exact block, .write .exact block]

theorem allocations_bounded_cycled :
    let w := reach (.default .exact) (some 0) cycled
    w.allocCounter = some 1 ∧ w.buffer.buf.capacity = 16 ∧
      w.buffer.buf.capacity ≤ max 15 (max 15 16) ∧
        ∃ n, w.allocCounter = some n ∧ n + 15 ≤ w.buffer.buf.capacity + 0 + 0 := by
  have peaks : Peaks (max 15) 16 ⟨(Construction.default .exact).build, some 0⟩ cycled :=
    ⟨exact_modest, by decide, exact_modest, by decide, exact_modest, by decide,
      exact_modest, by decide, exact_modest, by decide, trivial⟩
  exact ⟨rfl, rfl, allocations_bounded (.default .exact) cycled peaks⟩

end PatBase.Bytes.Buffer
