/-
# PatBase.Lib.StdString -- `std::size_t`, spans and `std::string`

What the C++ standard says of the library types a byte buffer is built from.
`std::size_t` arithmetic wraps at `2 ^ 64` (`addSize`, `subSize`).  Real objects
have at most `maxSize` bytes, and `Span` and `StdString` carry that bound, so a
sum of two lengths never wraps.

Storage requests go through a `Storage`: for each request it either gives a
capacity of at least what was asked, or fails (`length_error`, `bad_alloc`).  It
is an arbitrary function of the request's site, the capacity so far and the
capacity needed, so every theorem over a `Storage` covers every allocator.
-/
import Mathlib.Algebra.Group.Nat.Defs
import Mathlib.Data.List.Basic

namespace PatBase.Lib

set_option autoImplicit false

/-- The largest object: `PTRDIFF_MAX`. -/
def maxSize : Nat := 2 ^ 63 - 1

/-- `std::size_t` addition. -/
def addSize (a b : Nat) : Nat := (a + b) % 2 ^ 64

/-- `std::size_t` subtraction: wraps below zero. -/
def subSize (a b : Nat) : Nat := (a + (2 ^ 64 - b % 2 ^ 64)) % 2 ^ 64

theorem addSize_eq {a b : Nat} (left : a ≤ maxSize) (right : b ≤ maxSize) :
    addSize a b = a + b := by
  unfold addSize
  unfold maxSize at left right
  omega

theorem subSize_of_le {a b : Nat} (le : b ≤ a) (bound : a < 2 ^ 64) :
    subSize a b = a - b := by
  unfold subSize
  omega

theorem subSize_eq {a b : Nat} (le : b ≤ a) (bound : a ≤ maxSize) : subSize a b = a - b := by
  apply subSize_of_le le
  unfold maxSize at bound
  omega

theorem subSize_lt (a b : Nat) : subSize a b < 2 ^ 64 :=
  Nat.mod_lt _ (Nat.two_pow_pos 64)

/-- The values of `std::size_t`. -/
abbrev SizeT := { n : Nat // n < 2 ^ 64 }

def SizeT.sub (a b : SizeT) : SizeT := ⟨subSize a.1 b.1, subSize_lt a.1 b.1⟩

theorem SizeT.sub_of_le {a b : SizeT} (le : b.1 ≤ a.1) : (a.sub b).1 = a.1 - b.1 :=
  subSize_of_le le a.2

/-- The bytes of a `std::span<const char>` or a `std::string_view`. -/
abbrev Span := { bytes : List UInt8 // bytes.length ≤ maxSize }

namespace Span

def size (s : Span) : Nat := s.1.length

theorem size_le (s : Span) : s.size ≤ maxSize := s.2

/-- `s.size()`, as the number type it has. -/
def sizeT (s : Span) : SizeT := ⟨s.size, by
  have := s.size_le
  unfold maxSize at this
  omega⟩

@[simp] theorem sizeT_val (s : Span) : s.sizeT.1 = s.size := rfl

/-- `s.subspan(offset, count)` -/
def subspan (s : Span) (offset count : Nat) : Span := ⟨(s.1.drop offset).take count, by
  have := s.2
  simp only [List.length_take, List.length_drop]
  omega⟩

@[simp] theorem subspan_size (s : Span) (offset count : Nat) :
    (s.subspan offset count).size = min count (s.size - offset) := by
  simp [subspan, size]

/-- `s.subspan(offset)` -/
def drop (s : Span) (offset : Nat) : Span := ⟨s.1.drop offset, by
  have := s.2
  simp only [List.length_drop]
  omega⟩

end Span

/-- What a storage request throws. -/
inductive StorageError where
  | lengthError
  | badAlloc
  deriving DecidableEq, Repr

inductive Fault where
  /-- A range outside the object it is taken from: undefined behaviour. -/
  | outOfRange
  | storage (e : StorageError)
  deriving DecidableEq, Repr

/-- The library call that asks for storage. -/
inductive Site where
  | reserve
  | assign
  | resize
  | append
  deriving DecidableEq, Repr

/-- How the implementation answers storage requests. -/
structure Storage where
  /-- The capacity of a default constructed string. -/
  sso : { capacity : Nat // capacity ≤ maxSize }
  grow : Site → (capacity needed : Nat) →
    Except StorageError { granted : Nat // needed ≤ granted ∧ granted ≤ maxSize }

/-- Every request gets exactly what it asks for, up to the largest object. -/
def Storage.exact : Storage where
  sso := ⟨15, by decide⟩
  grow _ _ needed :=
    if fits : needed ≤ maxSize then .ok ⟨needed, Nat.le_refl needed, fits⟩ else .error .lengthError

/-- Some request for at most `bound` bytes gets this failure. -/
def Storage.Refuses (st : Storage) (bound : Nat) (e : StorageError) : Prop :=
  ∃ site capacity needed, needed ≤ bound ∧ st.grow site capacity needed = .error e

theorem Storage.Refuses.mono {st : Storage} {a b : Nat} {e : StorageError}
    (refuses : st.Refuses a e) (le : a ≤ b) : st.Refuses b e := by
  obtain ⟨site, capacity, needed, small, refusal⟩ := refuses
  exact ⟨site, capacity, needed, Nat.le_trans small le, refusal⟩

structure StdString where
  bytes : List UInt8
  capacity : Nat
  size_le_capacity : bytes.length ≤ capacity
  capacity_le_maxSize : capacity ≤ maxSize
  deriving DecidableEq

/-- What a move of `s` leaves in its target and in `s` itself; the capacities are up to
the implementation. -/
structure StdString.Moved (s : StdString) where
  target : StdString
  source : StdString
  target_bytes : target.bytes = s.bytes
  source_empty : source.bytes = []

/-- The target takes over the storage, and the source starts again without any. -/
def StdString.handOver (sso : Nat) (fits : sso ≤ maxSize) (s : StdString) : s.Moved where
  target := s
  source := ⟨[], sso, Nat.zero_le sso, fits⟩
  target_bytes := rfl
  source_empty := rfl

namespace StdString

def size (s : StdString) : Nat := s.bytes.length

theorem size_le_maxSize (s : StdString) : s.size ≤ maxSize :=
  Nat.le_trans s.size_le_capacity s.capacity_le_maxSize

/-- `std::string s;` -/
def empty (st : Storage) : StdString where
  bytes := []
  capacity := st.sso.1
  size_le_capacity := Nat.zero_le _
  capacity_le_maxSize := st.sso.2

/-- Ask for room for `needed` bytes, keeping the content: no request when the
capacity suffices already. -/
def ensure (st : Storage) (site : Site) (needed : Nat) (s : StdString) :
    Except Fault { r : StdString // r.bytes = s.bytes ∧ needed ≤ r.capacity ∧
      s.capacity ≤ r.capacity } :=
  if fits : needed ≤ s.capacity then
    .ok ⟨s, rfl, fits, Nat.le_refl _⟩
  else
    match st.grow site s.capacity needed with
    | .error e => .error (.storage e)
    | .ok granted =>
        have larger : s.capacity ≤ granted.1 := by have := granted.2.1; omega
        .ok ⟨⟨s.bytes, granted.1, Nat.le_trans s.size_le_capacity larger, granted.2.2⟩, rfl,
          granted.2.1, larger⟩

/-- Replace the content, asking for room first. -/
def store (st : Storage) (site : Site) (bytes : List UInt8) (s : StdString) :
    Except Fault StdString :=
  match ensure st site bytes.length s with
  | .error e => .error e
  | .ok r => .ok ⟨bytes, r.1.capacity, r.2.2.1, r.1.capacity_le_maxSize⟩

/-- `s.reserve(n)` -/
def reserve (st : Storage) (n : Nat) (s : StdString) : Except Fault StdString :=
  match ensure st .reserve n s with
  | .error e => .error e
  | .ok r => .ok r.1

/-- `s.assign(bytes)` -/
def assign (st : Storage) (bytes : List UInt8) (s : StdString) : Except Fault StdString :=
  store st .assign bytes s

/-- `s.resize(n)` -/
def resize (st : Storage) (n : Nat) (s : StdString) : Except Fault StdString :=
  store st .resize (s.bytes.take n ++ List.replicate (n - s.size) 0) s

/-- `s.append(bytes)` -/
def append (st : Storage) (bytes : List UInt8) (s : StdString) : Except Fault StdString :=
  store st .append (s.bytes ++ bytes) s

/-- `std::memmove(s.data(), &s[pos], n)`: the first `n` bytes become the `n` bytes
at `pos`, whether or not the ranges overlap. -/
def memmove (pos n : Nat) (s : StdString) : Except Fault StdString :=
  if inside : pos + n ≤ s.size then
    .ok ⟨(s.bytes.drop pos).take n ++ s.bytes.drop n, s.capacity, by
      have := s.size_le_capacity
      simp only [size] at inside
      simp only [List.length_append, List.length_take, List.length_drop]
      omega, s.capacity_le_maxSize⟩
  else .error .outOfRange

/-- The bytes of the range `[&s[pos], &s[pos + n])`; its end may be one past the last. -/
def range (bytes : List UInt8) (pos n : Nat) : Except Fault (List UInt8) :=
  if pos + n ≤ bytes.length then .ok ((bytes.drop pos).take n) else .error .outOfRange

theorem ensure_of_le {st : Storage} {site : Site} {needed : Nat} {s : StdString}
    (fits : needed ≤ s.capacity) :
    ensure st site needed s = .ok ⟨s, rfl, fits, Nat.le_refl _⟩ := by
  simp only [ensure, fits, dite_true]

theorem ensure_eq_error {st : Storage} {site : Site} {needed : Nat} {s : StdString} {f : Fault}
    (refused : ensure st site needed s = .error f) :
    ∃ e, st.Refuses needed e ∧ f = .storage e := by
  unfold ensure at refused
  split at refused
  · cases refused
  · split at refused
    · rename_i e refusal
      cases refused
      exact ⟨e, ⟨site, s.capacity, needed, Nat.le_refl needed, refusal⟩, rfl⟩
    · cases refused

/-- Content that fits the capacity is stored without a request. -/
theorem store_of_le {st : Storage} {site : Site} {bytes : List UInt8} {s : StdString}
    (fits : bytes.length ≤ s.capacity) :
    store st site bytes s = .ok ⟨bytes, s.capacity, fits, s.capacity_le_maxSize⟩ := by
  simp only [store, ensure_of_le fits]

theorem reserve_eq_error {st : Storage} {n : Nat} {s : StdString} {f : Fault}
    (refused : reserve st n s = .error f) : ∃ e, st.Refuses n e ∧ f = .storage e := by
  unfold reserve at refused
  split at refused
  · rename_i refusal
    cases refused
    exact ensure_eq_error refusal
  · cases refused

theorem store_eq_ok {st : Storage} {site : Site} {bytes : List UInt8} {s r : StdString}
    (stored : store st site bytes s = .ok r) : r.bytes = bytes ∧ s.capacity ≤ r.capacity := by
  unfold store at stored
  split at stored
  · cases stored
  · rename_i grown _
    cases stored
    exact ⟨rfl, grown.2.2.2⟩

theorem reserve_eq_ok {st : Storage} {n : Nat} {s r : StdString}
    (reserved : reserve st n s = .ok r) :
    r.bytes = s.bytes ∧ n ≤ r.capacity ∧ s.capacity ≤ r.capacity := by
  unfold reserve at reserved
  split at reserved
  · cases reserved
  · rename_i grown _
    cases reserved
    exact grown.2

theorem memmove_eq_ok {pos n : Nat} {s r : StdString} (moved : memmove pos n s = .ok r) :
    r.bytes = (s.bytes.drop pos).take n ++ s.bytes.drop n ∧ r.capacity = s.capacity := by
  unfold memmove at moved
  split at moved
  · cases moved
    exact ⟨rfl, rfl⟩
  · cases moved

/-- Resizing down truncates. -/
theorem resize_eq_ok {st : Storage} {n : Nat} {s r : StdString} (le : n ≤ s.size)
    (resized : resize st n s = .ok r) : r.bytes = s.bytes.take n ∧ s.capacity ≤ r.capacity := by
  obtain ⟨content, kept⟩ := store_eq_ok resized
  refine ⟨?_, kept⟩
  rw [content, Nat.sub_eq_zero_of_le le, List.replicate_zero, List.append_nil]

end StdString

end PatBase.Lib
