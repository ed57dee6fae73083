/-
# PatBase.Bytes.Buffer -- `pat::bytes::Buffer`

The class of pat/bytes/buffer.{h,cc}, member by member.  A buffer reads from a
view it does not own (`inView`) or from its own string; `pos` is how much of the
active storage has been read.  Members run in `Action`: they may throw, and a
throw leaves the fields as the steps before it made them.

`Represents b q` says that `b` stands for the byte queue `q`.  `write` has three
parts that each may run or not -- `ownView`, `makeRoom` (compaction or
reallocation) and the append -- and each gets one lemma that says everything a
completed run of it can have done; `read_spec` and `write_spec` are assembled
from these.
-/
import PatBase.Lib.Effect
import PatBase.Lib.StdString

namespace PatBase.Bytes

open PatBase.Lib PatBase.Lib.Effect

set_option autoImplicit false

structure Buffer where
  buf : StdString
  bufView : Span
  pos : Nat
  inView : Bool
  deriving DecidableEq

/-- A buffer, and the test counter `*testing::alloc_counter` when there is one. -/
structure World where
  buffer : Buffer
  allocCounter : Option Nat
  deriving DecidableEq

abbrev Action := EStateM Fault World

namespace Buffer

/-! ## The class -/

/-- `Buffer()` -/
def default (st : Storage) : Buffer where
  buf := .empty st
  bufView := ⟨[], Nat.zero_le _⟩
  pos := 0
  inView := false

/-- `Buffer(std::string&&)` -/
def ofString (st : Storage) (str : StdString) : Buffer :=
  { default st with buf := str }

/-- `Buffer(std::string_view)` -/
def ofView (st : Storage) (str : Span) : Buffer :=
  { default st with bufView := str, inView := true }

def size (b : Buffer) : Nat :=
  if b.inView then subSize b.bufView.size b.pos else subSize b.buf.size b.pos

def isEmpty (b : Buffer) : Bool := b.size == 0

def available (b : Buffer) : Nat :=
  if b.inView then 0 else subSize b.buf.capacity b.buf.size

def capacity (b : Buffer) : Nat :=
  if b.inView then b.bufView.size else b.buf.capacity

/-- The bytes `read` takes from. -/
def active (b : Buffer) : List UInt8 :=
  if b.inView then b.bufView.1 else b.buf.bytes

/-- What is left to read. -/
def unreadBytes (b : Buffer) : List UInt8 := b.active.drop b.pos

/-- `Read`: the count, and the caller's span after the copy. -/
def read (dst : Span) : Action (Nat × List UInt8) := do
  let w ← get
  let readBytes := min w.buffer.size dst.size
  let copied ← throwing (StdString.range w.buffer.active w.buffer.pos readBytes)
  set { w with buffer := { w.buffer with pos := addSize w.buffer.pos readBytes } }
  pure (readBytes, copied ++ dst.1.drop readBytes)

def countAllocation : Action Unit :=
  modify fun w => { w with allocCounter := w.allocCounter.map (addSize · 1) }

/-- Run a member of `std::string` on `buf_`. -/
def onBuf (member : StdString → Except Fault StdString) : Action Unit := do
  let w ← get
  let s ← throwing (member w.buffer.buf)
  set { w with buffer := { w.buffer with buf := s } }

/-- `Write` is going to modify: copy a view into `buf_`. -/
def ownView (st : Storage) (src : Span) : Action Unit := do
  let w ← get
  if w.buffer.inView then do
    countAllocation
    onBuf (·.reserve st (addSize w.buffer.bufView.size src.size))
    onBuf (·.assign st w.buffer.bufView.1)
    modify fun w => { w with buffer := { w.buffer with inView := false } }
  else pure ()

/-- The unread bytes move to a new string with room for `src`. -/
def reallocate (st : Storage) (src : Span) : Action Unit := do
  countAllocation
  let w ← get
  let newBuf ← throwing ((StdString.empty st).reserve st (addSize w.buffer.size src.size))
  let unread ← throwing (StdString.range w.buffer.buf.bytes w.buffer.pos w.buffer.size)
  let newBuf ← throwing (newBuf.assign st unread)
  onBuf fun _ => .ok newBuf

/-- The unread bytes move to the front of `buf_`. -/
def compact (st : Storage) : Action Unit := do
  let w ← get
  onBuf (·.memmove w.buffer.pos w.buffer.size)
  onBuf (·.resize st w.buffer.size)

/-- Move the unread bytes to the front of storage that has room for `src`. -/
def copyUnread (st : Storage) (src : Span) : Action Unit := do
  let w ← get
  if subSize w.buffer.capacity w.buffer.size < src.size then reallocate st src
  else compact st

/-- If you can't write at the end, copy. -/
def makeRoom (st : Storage) (src : Span) : Action Unit := do
  let w ← get
  if w.buffer.available < src.size then do
    copyUnread st src
    modify fun w => { w with buffer := { w.buffer with pos := 0 } }
  else pure ()

/-- `Write` -/
def write (st : Storage) (src : Span) : Action Nat := do
  if src.size = 0 then pure 0
  else do
    ownView st src
    makeRoom st src
    onBuf (·.append st src.1)
    pure src.size

/-! ## What a buffer stands for -/

/-- `q` is what is left to read, and `pos` has not passed the end. -/
structure Represents (b : Buffer) (q : List UInt8) : Prop where
  pos_le : b.pos ≤ b.active.length
  unread : b.active.drop b.pos = q

theorem active_length_le (b : Buffer) : b.active.length ≤ maxSize := by
  unfold active
  split
  · exact b.bufView.2
  · exact b.buf.size_le_maxSize

theorem size_eq_subSize (b : Buffer) : b.size = subSize b.active.length b.pos := by
  unfold size active Span.size StdString.size
  split <;> rfl

namespace Represents

variable {b : Buffer} {q : List UInt8}

theorem size_eq (rep : Represents b q) : b.size = q.length := by
  rw [size_eq_subSize, subSize_eq rep.pos_le b.active_length_le, ← rep.unread, List.length_drop]

theorem isEmpty_eq (rep : Represents b q) : b.isEmpty = q.isEmpty := by
  cases q <;> simp [isEmpty, rep.size_eq]

theorem length_le_active (rep : Represents b q) : q.length ≤ b.active.length := by
  rw [← rep.unread, List.length_drop]
  exact Nat.sub_le _ _

theorem length_le (rep : Represents b q) : q.length ≤ maxSize :=
  Nat.le_trans rep.length_le_active b.active_length_le

/-- The range a member copies from, when it stays inside the unread bytes. -/
theorem range_eq (rep : Represents b q) {n : Nat} (le : n ≤ q.length) :
    StdString.range b.active b.pos n = .ok (q.take n) := by
  have inside : b.pos + n ≤ b.active.length := by
    have := rep.pos_le
    rw [← rep.unread, List.length_drop] at le
    omega
  rw [StdString.range, if_pos inside, rep.unread]

end Represents

theorem represents_default (st : Storage) : Represents (default st) [] :=
  ⟨Nat.zero_le _, rfl⟩

theorem represents_ofString (st : Storage) (str : StdString) :
    Represents (ofString st str) str.bytes :=
  ⟨Nat.zero_le _, rfl⟩

theorem represents_ofView (st : Storage) (str : Span) : Represents (ofView st str) str.1 :=
  ⟨Nat.zero_le _, rfl⟩

/-! ## `read` -/

/-- A read always completes, takes the front of the queue and keeps the rest. -/
theorem read_spec {w : World} {q : List UInt8} (rep : Represents w.buffer q) (dst : Span) :
    ∃ w', read dst w =
        .ok (min q.length dst.size, q.take (min q.length dst.size) ++
          dst.1.drop (min q.length dst.size)) w' ∧
      Represents w'.buffer (q.drop (min q.length dst.size)) := by
  have count : min w.buffer.size dst.size = min q.length dst.size := by rw [rep.size_eq]
  have copied := rep.range_eq (Nat.min_le_left q.length dst.size)
  have posBound : w.buffer.pos + min q.length dst.size ≤ w.buffer.active.length := by
    have length := congrArg List.length rep.unread
    have := rep.pos_le
    simp only [List.length_drop] at length
    omega
  have moved : addSize w.buffer.pos (min q.length dst.size) =
      w.buffer.pos + min q.length dst.size := by
    have := w.buffer.active_length_le
    exact addSize_eq (by omega) (by omega)
  refine ⟨{ w with buffer := { w.buffer with pos := w.buffer.pos + min q.length dst.size } },
    ?_, posBound, ?_⟩
  · unfold read
    rw [bind_eq_ok]
    refine ⟨w, w, rfl, ?_⟩
    rw [count, copied, moved]
    rfl
  · show List.drop (w.buffer.pos + _) w.buffer.active = _
    rw [← List.drop_drop, rep.unread]

/-! ## `write` -/

/-- The state after a member of `std::string` left `buf_` as `s`. -/
def withBuf (w : World) (s : StdString) : World :=
  { w with buffer := { w.buffer with buf := s } }

/-- The state after one more counted allocation. -/
def counted (w : World) : World :=
  { w with allocCounter := w.allocCounter.map (addSize · 1) }

theorem onBuf_eq_ok {member : StdString → Except Fault StdString} {w w' : World} {u : Unit} :
    onBuf member w = .ok u w' ↔ ∃ s, member w.buffer.buf = .ok s ∧ w' = withBuf w s := by
  unfold onBuf
  simp only [bind_eq_ok, get_eq_ok, throwing_eq_ok, set_eq_ok]
  constructor
  · rintro ⟨_, _, ⟨rfl, rfl⟩, s, _, ⟨result, rfl⟩, rfl⟩
    exact ⟨s, result, rfl⟩
  · rintro ⟨s, result, rfl⟩
    exact ⟨w, w, ⟨rfl, rfl⟩, s, w, ⟨result, rfl⟩, rfl⟩

theorem countAllocation_eq_ok {w w' : World} {u : Unit} :
    countAllocation w = .ok u w' ↔ counted w = w' := modify_eq_ok

/-- Everything a completed `ownView` can have done. -/
theorem ownView_eq_ok {st : Storage} {src : Span} {w w' : World} {u : Unit}
    (completed : ownView st src w = .ok u w') :
    (w.buffer.inView = false ∧ w' = w) ∨
      (w.buffer.inView = true ∧ ∃ s : StdString, s.bytes = w.buffer.bufView.1 ∧
        w.buffer.bufView.size + src.size ≤ s.capacity ∧
        w' = { counted w with buffer := { w.buffer with buf := s, inView := false } }) := by
  unfold ownView at completed
  obtain ⟨_, _, got, rest⟩ := bind_eq_ok.mp completed
  obtain ⟨rfl, rfl⟩ := get_eq_ok.mp got
  split at rest
  · rename_i viewing
    refine .inr ⟨viewing, ?_⟩
    obtain ⟨_, _, count, rest⟩ := bind_eq_ok.mp rest
    obtain rfl := countAllocation_eq_ok.mp count
    obtain ⟨_, _, first, rest⟩ := bind_eq_ok.mp rest
    obtain ⟨room, reserved, rfl⟩ := onBuf_eq_ok.mp first
    obtain ⟨_, _, second, last⟩ := bind_eq_ok.mp rest
    obtain ⟨s, assigned, rfl⟩ := onBuf_eq_ok.mp second
    obtain rfl := modify_eq_ok.mp last
    obtain ⟨content, kept⟩ := StdString.store_eq_ok assigned
    obtain ⟨-, enough, -⟩ := StdString.reserve_eq_ok reserved
    rw [addSize_eq w.buffer.bufView.size_le src.size_le] at enough
    exact ⟨s, content, Nat.le_trans enough kept, rfl⟩
  · rename_i owning
    obtain ⟨-, rfl⟩ := pure_eq_ok.mp rest
    exact .inl ⟨by simpa using owning, rfl⟩

section OwnString

variable {st : Storage} {src : Span} {w w' : World} {q : List UInt8} {u : Unit}

theorem active_of_owning {b : Buffer} (owning : b.inView = false) : b.active = b.buf.bytes := by
  simp [active, owning]

theorem capacity_of_owning {b : Buffer} (owning : b.inView = false) :
    b.capacity = b.buf.capacity := by
  simp [capacity, owning]

theorem available_of_owning {b : Buffer} (owning : b.inView = false) :
    b.available = b.buf.capacity - b.buf.size := by
  simp only [available, owning, Bool.false_eq_true, if_false]
  exact subSize_eq b.buf.size_le_capacity b.buf.capacity_le_maxSize

/-- The unread bytes fit the capacity, in either mode. -/
theorem Represents.length_le_capacity {b : Buffer} (rep : Represents b q) :
    q.length ≤ b.capacity := by
  have length := congrArg List.length rep.unread
  have fits := b.buf.size_le_capacity
  rw [List.length_drop] at length
  unfold active at length
  unfold capacity Span.size
  split at length <;> simp_all <;> omega

theorem capacity_le (b : Buffer) : b.capacity ≤ maxSize := by
  unfold capacity
  split
  · exact b.bufView.size_le
  · exact b.buf.capacity_le_maxSize

theorem represents_of_owning {b : Buffer} (owning : b.inView = false)
    (pos_le : b.pos ≤ b.buf.bytes.length) (unread : b.buf.bytes.drop b.pos = q) :
    Represents b q := by
  refine ⟨?_, ?_⟩ <;> rwa [active_of_owning owning]

/-- Everything a completed `reallocate` can have done. -/
theorem reallocate_eq_ok (rep : Represents w.buffer q) (owning : w.buffer.inView = false)
    (completed : reallocate st src w = .ok u w') :
    ∃ s : StdString, s.bytes = q ∧ q.length + src.size ≤ s.capacity ∧
      w' = withBuf (counted w) s := by
  unfold reallocate at completed
  obtain ⟨_, _, count, rest⟩ := bind_eq_ok.mp completed
  obtain rfl := countAllocation_eq_ok.mp count
  obtain ⟨_, _, got, rest⟩ := bind_eq_ok.mp rest
  obtain ⟨rfl, rfl⟩ := get_eq_ok.mp got
  obtain ⟨room, _, first, rest⟩ := bind_eq_ok.mp rest
  obtain ⟨reserved, rfl⟩ := throwing_eq_ok.mp first
  obtain ⟨unread, _, second, rest⟩ := bind_eq_ok.mp rest
  obtain ⟨copied, rfl⟩ := throwing_eq_ok.mp second
  obtain ⟨s, _, third, last⟩ := bind_eq_ok.mp rest
  obtain ⟨assigned, rfl⟩ := throwing_eq_ok.mp third
  obtain ⟨_, ⟨⟩, rfl⟩ := onBuf_eq_ok.mp last
  have whole := rep.range_eq (Nat.le_refl q.length)
  rw [List.take_length] at whole
  have same : unread = q := by
    have : StdString.range w.buffer.active w.buffer.pos w.buffer.size = .ok unread := by
      rw [active_of_owning owning]; exact copied
    rw [rep.size_eq, whole] at this
    exact (Except.ok.inj this).symm
  obtain ⟨content, kept⟩ := StdString.store_eq_ok assigned
  obtain ⟨-, enough, -⟩ := StdString.reserve_eq_ok reserved
  have sum : addSize w.buffer.size src.size = q.length + src.size := by
    rw [rep.size_eq]; exact addSize_eq rep.length_le src.size_le
  refine ⟨_, content.trans same, ?_, rfl⟩
  exact sum ▸ Nat.le_trans enough kept

/-- Everything a completed `compact` can have done. -/
theorem compact_eq_ok (rep : Represents w.buffer q) (owning : w.buffer.inView = false)
    (completed : compact st w = .ok u w') :
    ∃ s : StdString, s.bytes = q ∧ w.buffer.buf.capacity ≤ s.capacity ∧ w' = withBuf w s := by
  unfold compact at completed
  obtain ⟨_, _, got, rest⟩ := bind_eq_ok.mp completed
  obtain ⟨rfl, rfl⟩ := get_eq_ok.mp got
  obtain ⟨_, _, first, last⟩ := bind_eq_ok.mp rest
  obtain ⟨moved, movement, rfl⟩ := onBuf_eq_ok.mp first
  obtain ⟨s, resized, rfl⟩ := onBuf_eq_ok.mp last
  rw [rep.size_eq] at movement resized
  have whole := rep.unread
  rw [active_of_owning owning] at whole
  obtain ⟨bytes, sameCapacity⟩ := StdString.memmove_eq_ok movement
  rw [whole, List.take_length] at bytes
  have le : q.length ≤ moved.size := by
    rw [StdString.size, bytes, List.length_append]
    omega
  obtain ⟨content, kept⟩ := StdString.resize_eq_ok le resized
  refine ⟨s, ?_, ?_, rfl⟩
  · rw [content]
    show List.take q.length moved.bytes = q
    rw [bytes, List.take_left]
  · exact sameCapacity ▸ kept

/-- Everything a completed `copyUnread` can have done. -/
theorem copyUnread_eq_ok (rep : Represents w.buffer q) (owning : w.buffer.inView = false)
    (completed : copyUnread st src w = .ok u w') :
    ∃ s : StdString, s.bytes = q ∧
      ((q.length + src.size ≤ w.buffer.capacity ∧ w.buffer.capacity ≤ s.capacity ∧
        w' = withBuf w s) ∨
      (w.buffer.capacity < q.length + src.size ∧ q.length + src.size ≤ s.capacity ∧
        w' = withBuf (counted w) s)) := by
  unfold copyUnread at completed
  obtain ⟨_, _, got, rest⟩ := bind_eq_ok.mp completed
  obtain ⟨rfl, rfl⟩ := get_eq_ok.mp got
  have room : subSize w.buffer.capacity w.buffer.size = w.buffer.capacity - q.length := by
    rw [rep.size_eq]; exact subSize_eq rep.length_le_capacity w.buffer.capacity_le
  have within := rep.length_le_capacity
  split at rest
  · rename_i short
    obtain ⟨s, content, enough, rfl⟩ := reallocate_eq_ok rep owning rest
    exact ⟨s, content, .inr ⟨by omega, enough, rfl⟩⟩
  · rename_i fits
    obtain ⟨s, content, kept, rfl⟩ := compact_eq_ok rep owning rest
    rw [← capacity_of_owning owning] at kept
    exact ⟨s, content, .inl ⟨by omega, kept, rfl⟩⟩

/-- Everything a completed `makeRoom` can have done. -/
theorem makeRoom_eq_ok (rep : Represents w.buffer q) (owning : w.buffer.inView = false)
    (completed : makeRoom st src w = .ok u w') :
    (src.size ≤ w.buffer.available ∧ w' = w) ∨
      (w.buffer.available < src.size ∧ ∃ s : StdString, s.bytes = q ∧
        ((q.length + src.size ≤ w.buffer.capacity ∧ w.buffer.capacity ≤ s.capacity ∧
          w' = { w with buffer := { w.buffer with buf := s, pos := 0 } }) ∨
        (w.buffer.capacity < q.length + src.size ∧ q.length + src.size ≤ s.capacity ∧
          w' = { counted w with buffer := { w.buffer with buf := s, pos := 0 } }))) := by
  unfold makeRoom at completed
  obtain ⟨_, _, got, rest⟩ := bind_eq_ok.mp completed
  obtain ⟨rfl, rfl⟩ := get_eq_ok.mp got
  split at rest
  · rename_i full
    refine .inr ⟨full, ?_⟩
    obtain ⟨_, _, moved, last⟩ := bind_eq_ok.mp rest
    obtain rfl := modify_eq_ok.mp last
    obtain ⟨s, content, ⟨fits, kept, rfl⟩ | ⟨short, enough, rfl⟩⟩ := copyUnread_eq_ok rep owning moved
    · exact ⟨s, content, .inl ⟨fits, kept, rfl⟩⟩
    · exact ⟨s, content, .inr ⟨short, enough, rfl⟩⟩
  · rename_i enough
    obtain ⟨-, rfl⟩ := pure_eq_ok.mp rest
    exact .inl ⟨by omega, rfl⟩

end OwnString

/-- After `ownView` the buffer owns its bytes and still stands for the same queue. -/
theorem ownView_represents {st : Storage} {src : Span} {w w' : World} {q : List UInt8} {u : Unit}
    (rep : Represents w.buffer q) (completed : ownView st src w = .ok u w') :
    Represents w'.buffer q ∧ w'.buffer.inView = false := by
  obtain ⟨owning, rfl⟩ | ⟨viewing, s, content, -, rfl⟩ := ownView_eq_ok completed
  · exact ⟨rep, owning⟩
  · have same : ({ w.buffer with buf := s, inView := false } : Buffer).active =
        w.buffer.active := by simp [active, viewing, content]
    exact ⟨⟨by rw [same]; exact rep.pos_le, by rw [same]; exact rep.unread⟩, rfl⟩

theorem makeRoom_represents {st : Storage} {src : Span} {w w' : World} {q : List UInt8} {u : Unit}
    (rep : Represents w.buffer q) (owning : w.buffer.inView = false)
    (completed : makeRoom st src w = .ok u w') :
    Represents w'.buffer q ∧ w'.buffer.inView = false := by
  obtain ⟨-, rfl⟩ | ⟨-, s, content, ⟨-, -, rfl⟩ | ⟨-, -, rfl⟩⟩ := makeRoom_eq_ok rep owning completed
  · exact ⟨rep, owning⟩
  all_goals exact ⟨represents_of_owning owning (Nat.zero_le _) content, owning⟩

/-- A completed write reports the whole span and appends exactly it, whichever
way it made room. -/
theorem write_spec {st : Storage} {src : Span} {w w' : World} {q : List UInt8} {count : Nat}
    (rep : Represents w.buffer q) (completed : write st src w = .ok count w') :
    count = src.size ∧ Represents w'.buffer (q ++ src.1) := by
  unfold write at completed
  split at completed
  · rename_i empty
    obtain ⟨rfl, rfl⟩ := pure_eq_ok.mp completed
    have nothing : src.1 = [] := List.eq_nil_of_length_eq_zero empty
    exact ⟨empty.symm, by rw [nothing, List.append_nil]; exact rep⟩
  · obtain ⟨_, _, owned, rest⟩ := bind_eq_ok.mp completed
    obtain ⟨repOwned, owning⟩ := ownView_represents rep owned
    obtain ⟨_, _, room, rest⟩ := bind_eq_ok.mp rest
    obtain ⟨repRoom, owningRoom⟩ := makeRoom_represents repOwned owning room
    obtain ⟨_, _, appended, last⟩ := bind_eq_ok.mp rest
    obtain ⟨s, stored, rfl⟩ := onBuf_eq_ok.mp appended
    obtain ⟨rfl, rfl⟩ := pure_eq_ok.mp last
    obtain ⟨content, -⟩ := StdString.store_eq_ok stored
    have le := repRoom.pos_le
    have unread := repRoom.unread
    rw [active_of_owning owningRoom] at le unread
    refine ⟨rfl, represents_of_owning owningRoom ?_ ?_⟩
    · simp only [withBuf, content, List.length_append]
      omega
    · simp only [withBuf, content, List.drop_append_of_le_length le, unread]

/-! ## A write that throws

Only a refused storage request makes `write` throw.  Of its requests only the two
reserves can be refused, and each stands before the first change of a field: the
buffer is what it was, and the counter has counted the attempt. -/

/-- The allocator refused a request, for no more than the stored bytes and the span;
the buffer is what it was. -/
structure Stopped (st : Storage) (src : Span) (w w' : World) (f : Fault) : Prop where
  refused : ∃ e, st.Refuses (w.buffer.active.length + src.size) e ∧ f = .storage e
  unchanged : w'.buffer = w.buffer

/-- The request that was refused: that of a view that is to be copied, or that of a
new string for the unread bytes. -/
inductive ReserveFailed (st : Storage) (src : Span) (w : World) (f : Fault) : World → Prop where
  | view (viewing : w.buffer.inView = true)
      (refused : w.buffer.buf.reserve st (addSize w.buffer.bufView.size src.size) = .error f) :
      ReserveFailed st src w f (counted w)
  | string (owning : w.buffer.inView = false) (full : w.buffer.available < src.size)
      (short : subSize w.buffer.capacity w.buffer.size < src.size)
      (refused : (StdString.empty st).reserve st (addSize w.buffer.size src.size) = .error f) :
      ReserveFailed st src w f (counted w)

theorem ReserveFailed.stopped {st : Storage} {src : Span} {w w' : World} {q : List UInt8}
    {f : Fault} (rep : Represents w.buffer q) (failed : ReserveFailed st src w f w') :
    Stopped st src w w' f := by
  cases failed with
  | view viewing refused =>
      obtain ⟨e, refuses, same⟩ := StdString.reserve_eq_error refused
      have stored : w.buffer.active = w.buffer.bufView.1 := by simp [active, viewing]
      rw [addSize_eq w.buffer.bufView.size_le src.size_le, Span.size, ← stored] at refuses
      exact ⟨⟨e, refuses, same⟩, rfl⟩
  | string owning full short refused =>
      obtain ⟨e, refuses, same⟩ := StdString.reserve_eq_error refused
      rw [rep.size_eq, addSize_eq rep.length_le src.size_le] at refuses
      exact ⟨⟨e, refuses.mono (Nat.add_le_add_right rep.length_le_active _), same⟩, rfl⟩

theorem onBuf_eq_error {member : StdString → Except Fault StdString} {w w' : World} {f : Fault} :
    onBuf member w = .error f w' ↔ member w.buffer.buf = .error f ∧ w = w' := by
  unfold onBuf
  simp only [bind_eq_error, get_ne_error, get_eq_ok, throwing_eq_error, set_ne_error, and_false,
    exists_false, or_false, false_or]
  constructor
  · rintro ⟨_, _, ⟨rfl, rfl⟩, refused⟩
    exact refused
  · intro refused
    exact ⟨w, w, ⟨rfl, rfl⟩, refused⟩

theorem ownView_eq_error {st : Storage} {src : Span} {w w' : World} {f : Fault}
    (thrown : ownView st src w = .error f w') :
    ReserveFailed st src w f w' := by
  unfold ownView at thrown
  obtain first | ⟨_, _, got, rest⟩ := bind_eq_error.mp thrown
  · exact absurd first get_ne_error
  obtain ⟨rfl, rfl⟩ := get_eq_ok.mp got
  split at rest
  · rename_i viewing
    obtain first | ⟨_, _, count, rest⟩ := bind_eq_error.mp rest
    · exact absurd first modify_ne_error
    obtain rfl := countAllocation_eq_ok.mp count
    obtain first | ⟨_, _, first, rest⟩ := bind_eq_error.mp rest
    · obtain ⟨refused, rfl⟩ := onBuf_eq_error.mp first
      exact .view viewing refused
    obtain ⟨room, reserved, rfl⟩ := onBuf_eq_ok.mp first
    -- The view fits what `reserve` just granted, so `assign` asks for nothing.
    obtain ⟨-, enough, -⟩ := StdString.reserve_eq_ok reserved
    rw [addSize_eq w.buffer.bufView.size_le src.size_le] at enough
    have fits : w.buffer.bufView.1.length ≤ room.capacity := Nat.le_of_add_right_le enough
    obtain second | ⟨_, _, _, last⟩ := bind_eq_error.mp rest
    · obtain ⟨refused, -⟩ := onBuf_eq_error.mp second
      rw [StdString.assign, StdString.store_of_le (s := (withBuf _ room).buffer.buf) fits] at refused
      cases refused
    · exact absurd last modify_ne_error
  · exact absurd rest pure_ne_error

section OwnString

variable {st : Storage} {src : Span} {w w' : World} {q : List UInt8} {f : Fault}

theorem reallocate_eq_error (rep : Represents w.buffer q) (owning : w.buffer.inView = false)
    (thrown : reallocate st src w = .error f w') :
    (StdString.empty st).reserve st (addSize w.buffer.size src.size) = .error f ∧
      w' = counted w := by
  unfold reallocate at thrown
  obtain first | ⟨_, _, count, rest⟩ := bind_eq_error.mp thrown
  · exact absurd first modify_ne_error
  obtain rfl := countAllocation_eq_ok.mp count
  obtain first | ⟨_, _, got, rest⟩ := bind_eq_error.mp rest
  · exact absurd first get_ne_error
  obtain ⟨rfl, rfl⟩ := get_eq_ok.mp got
  obtain first | ⟨room, _, first, rest⟩ := bind_eq_error.mp rest
  · obtain ⟨refused, rfl⟩ := throwing_eq_error.mp first
    exact ⟨refused, rfl⟩
  obtain ⟨reserved, rfl⟩ := throwing_eq_ok.mp first
  have whole : StdString.range w.buffer.buf.bytes w.buffer.pos w.buffer.size = .ok q := by
    have := rep.range_eq (Nat.le_refl q.length)
    rwa [List.take_length, active_of_owning owning, ← rep.size_eq] at this
  obtain second | ⟨unread, _, second, rest⟩ := bind_eq_error.mp rest
  · cases whole.symm.trans (throwing_eq_error.mp second).1
  obtain ⟨copied, rfl⟩ := throwing_eq_ok.mp second
  obtain rfl : q = unread := Except.ok.inj (whole.symm.trans copied)
  obtain ⟨-, enough, -⟩ := StdString.reserve_eq_ok reserved
  have sum : addSize (counted w).buffer.size src.size = q.length + src.size := by
    show addSize w.buffer.size src.size = _
    rw [rep.size_eq]; exact addSize_eq rep.length_le src.size_le
  have fits : q.length ≤ room.capacity := Nat.le_of_add_right_le (sum ▸ enough)
  obtain third | ⟨_, _, _, last⟩ := bind_eq_error.mp rest
  · rw [StdString.assign, StdString.store_of_le fits] at third
    cases (throwing_eq_error.mp third).1
  · cases (onBuf_eq_error.mp last).1

theorem compact_ne_error (rep : Represents w.buffer q) (owning : w.buffer.inView = false) :
    compact st w ≠ .error f w' := by
  intro thrown
  unfold compact at thrown
  obtain first | ⟨_, _, got, rest⟩ := bind_eq_error.mp thrown
  · exact absurd first get_ne_error
  obtain ⟨rfl, rfl⟩ := get_eq_ok.mp got
  have inside : w.buffer.pos + w.buffer.size ≤ w.buffer.buf.size := by
    have le := rep.pos_le
    have length := congrArg List.length rep.unread
    rw [List.length_drop, ← rep.size_eq] at length
    rw [active_of_owning owning] at le length
    unfold StdString.size
    omega
  obtain first | ⟨_, _, first, last⟩ := bind_eq_error.mp rest
  · have refused := (onBuf_eq_error.mp first).1
    rw [StdString.memmove, dif_pos inside] at refused
    cases refused
  · obtain ⟨moved, movement, rfl⟩ := onBuf_eq_ok.mp first
    obtain ⟨bytes, sameCapacity⟩ := StdString.memmove_eq_ok movement
    have refused : StdString.resize st w.buffer.size moved = .error f := (onBuf_eq_error.mp last).1
    have fits : (moved.bytes.take w.buffer.size ++
        List.replicate (w.buffer.size - moved.size) 0).length ≤ moved.capacity := by
      have within := moved.size_le_capacity
      have := w.buffer.buf.size_le_capacity
      unfold StdString.size at inside ⊢
      simp only [List.length_append, List.length_take, List.length_replicate]
      omega
    rw [StdString.resize, StdString.store_of_le fits] at refused
    cases refused

theorem makeRoom_eq_error (rep : Represents w.buffer q) (owning : w.buffer.inView = false)
    (thrown : makeRoom st src w = .error f w') :
    ReserveFailed st src w f w' := by
  unfold makeRoom copyUnread at thrown
  obtain first | ⟨_, _, got, rest⟩ := bind_eq_error.mp thrown
  · exact absurd first get_ne_error
  obtain ⟨rfl, rfl⟩ := get_eq_ok.mp got
  split at rest
  · rename_i full
    obtain moved | ⟨_, _, _, last⟩ := bind_eq_error.mp rest
    · obtain first | ⟨_, _, got, moved⟩ := bind_eq_error.mp moved
      · exact absurd first get_ne_error
      obtain ⟨rfl, rfl⟩ := get_eq_ok.mp got
      split at moved
      · rename_i short
        obtain ⟨refused, rfl⟩ := reallocate_eq_error rep owning moved
        exact .string owning full short refused
      · exact absurd moved (compact_ne_error rep owning)
    · exact absurd last modify_ne_error
  · exact absurd rest pure_ne_error

/-- After `makeRoom` the append fits the capacity. -/
theorem makeRoom_fits {u : Unit} (rep : Represents w.buffer q) (owning : w.buffer.inView = false)
    (completed : makeRoom st src w = .ok u w') :
    (w'.buffer.buf.bytes ++ src.1).length ≤ w'.buffer.buf.capacity := by
  have within := w.buffer.buf.size_le_capacity
  have room := available_of_owning owning
  have owned := capacity_of_owning owning
  obtain ⟨enough, rfl⟩ | ⟨-, s, content, ⟨fits, kept, rfl⟩ | ⟨-, enough, rfl⟩⟩ :=
    makeRoom_eq_ok rep owning completed
  all_goals
    simp only [List.length_append, StdString.size, Span.size] at *
  · omega
  · rw [content]; omega
  · rw [content]; omega

theorem append_ne_error {u : Unit} {w'' : World} (rep : Represents w.buffer q)
    (owning : w.buffer.inView = false) (completed : makeRoom st src w = .ok u w') :
    onBuf (·.append st src.1) w' ≠ .error f w'' := by
  intro thrown
  have refused := (onBuf_eq_error.mp thrown).1
  rw [StdString.append, StdString.store_of_le (makeRoom_fits rep owning completed)] at refused
  cases refused

end OwnString

/-- A view that was just copied has room to spare: nothing is left to make room for. -/
theorem ownView_room {st : Storage} {src : Span} {w w' : World} {u : Unit}
    (viewing : w.buffer.inView = true) (completed : ownView st src w = .ok u w') :
    src.size ≤ w'.buffer.available := by
  obtain ⟨owning, -⟩ | ⟨-, s, content, enough, rfl⟩ := ownView_eq_ok completed
  · rw [viewing] at owning
    cases owning
  · rw [available_of_owning rfl]
    simp only [StdString.size, content, Span.size] at *
    omega

/-- A write throws only what a reserve threw. -/
theorem write_reserveFailed {st : Storage} {src : Span} {w w' : World} {q : List UInt8}
    {f : Fault} (rep : Represents w.buffer q) (thrown : write st src w = .error f w') :
    ReserveFailed st src w f w' := by
  unfold write at thrown
  split at thrown
  · exact absurd thrown pure_ne_error
  obtain first | ⟨_, _, owned, rest⟩ := bind_eq_error.mp thrown
  · exact ownView_eq_error first
  obtain ⟨repOwned, owning⟩ := ownView_represents rep owned
  obtain second | ⟨_, _, room, rest⟩ := bind_eq_error.mp rest
  · have failed := makeRoom_eq_error repOwned owning second
    obtain ⟨-, rfl⟩ | ⟨viewing, -⟩ := ownView_eq_ok owned
    · exact failed
    · cases failed with
      | view viewing' _ =>
          rw [owning] at viewing'
          cases viewing'
      | string _ full _ _ =>
          have room := ownView_room viewing owned
          omega
  obtain third | ⟨_, _, _, last⟩ := bind_eq_error.mp rest
  · exact absurd third (append_ne_error repOwned owning room)
  · exact absurd last pure_ne_error

/-- **The strong guarantee.**  A write throws only what a storage request threw,
and leaves the buffer as it was. -/
theorem write_eq_error {st : Storage} {src : Span} {w w' : World} {q : List UInt8} {f : Fault}
    (rep : Represents w.buffer q) (thrown : write st src w = .error f w') :
    Stopped st src w w' f :=
  (write_reserveFailed rep thrown).stopped rep

end Buffer

end PatBase.Bytes
