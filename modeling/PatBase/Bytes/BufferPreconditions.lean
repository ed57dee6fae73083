/-
# PatBase.Bytes.BufferPreconditions -- what the buffer asks of the standard library

Every subscript, unsigned subtraction and copied range that a member of the buffer
evaluates has a precondition; `uses` lists them, in the order the member evaluates
them.  `std::string` may be subscripted one past its last character, `std::string_view`
may not, and `Read` takes the address of the end of the bytes it copies by subscript
in both modes.  So all preconditions hold over a run exactly as long as no view is
read to its end.
-/
import PatBase.Bytes.BufferStorage

namespace PatBase.Bytes.Buffer

open PatBase.Lib PatBase.Lib.Effect

set_option autoImplicit false

/-- A use of the standard library, or of `std::size_t`, that has a precondition. -/
inductive Use where
  | viewSubscript (index size : Nat)
  | stringSubscript (index size : Nat)
  | subtraction (whole part : Nat)
  /-- `count` bytes at `start`, of an object of `length` bytes. -/
  | range (start count length : Nat)
  deriving DecidableEq, Repr

namespace Use

def Met : Use → Prop
  | .viewSubscript index size => index < size
  | .stringSubscript index size => index ≤ size
  | .subtraction whole part => part ≤ whole
  | .range start count length => start + count ≤ length

def OfView : Use → Prop
  | .viewSubscript _ _ => True
  | _ => False

end Use

/-! ## The uses of each member -/

/-- `Size()` -/
def sizeUses (b : Buffer) : List Use :=
  if b.inView then [.subtraction b.bufView.size b.pos] else [.subtraction b.buf.size b.pos]

/-- `Available()` -/
def availableUses (b : Buffer) : List Use :=
  if b.inView then [] else [.subtraction b.buf.capacity b.buf.size]

/-- `Read`: the two subscripts and the ranges of the copy. -/
def readUses (dst : Span) (b : Buffer) : List Use :=
  let readBytes := min b.size dst.size
  sizeUses b ++
    (if b.inView then
      [.viewSubscript b.pos b.bufView.size,
        .viewSubscript (addSize b.pos readBytes) b.bufView.size,
        .range b.pos readBytes b.bufView.size]
    else
      [.stringSubscript b.pos b.buf.size, .stringSubscript (addSize b.pos readBytes) b.buf.size,
        .range b.pos readBytes b.buf.size]) ++
    [.range 0 readBytes dst.size]

/-- `buf_.assign(buf_view_)`, into what `reserve` left. -/
def ownViewUses (st : Storage) (src : Span) (b : Buffer) : List Use :=
  if b.inView then
    match b.buf.reserve st (addSize b.bufView.size src.size) with
    | .ok room => [.range 0 b.bufView.size b.bufView.size, .range 0 b.bufView.size room.capacity]
    | .error _ => []
  else []

/-- `new_buf.assign(&buf_[pos_], Size())` -/
def reallocateUses (st : Storage) (src : Span) (b : Buffer) : List Use :=
  sizeUses b ++
    match (StdString.empty st).reserve st (addSize b.size src.size) with
    | .ok room =>
        .stringSubscript b.pos b.buf.size :: sizeUses b ++
          [.range b.pos b.size b.buf.size, .range 0 b.size room.capacity]
    | .error _ => []

/-- `std::memmove(buf_.data(), &buf_[pos_], Size())` and `buf_.resize(Size())` -/
def compactUses (b : Buffer) : List Use :=
  .stringSubscript b.pos b.buf.size :: sizeUses b ++
    [.range b.pos b.size b.buf.size, .range 0 b.size b.buf.size] ++ sizeUses b

def makeRoomUses (st : Storage) (src : Span) (b : Buffer) : List Use :=
  availableUses b ++
    if b.available < src.size then
      sizeUses b ++ .subtraction b.capacity b.size ::
        (if subSize b.capacity b.size < src.size then reallocateUses st src b else compactUses b)
    else []

/-- `Write` -/
def writeUses (st : Storage) (src : Span) (w : World) : List Use :=
  if src.size = 0 then []
  else
    ownViewUses st src w.buffer ++
      match ownView st src w with
      | .ok _ w' => makeRoomUses st src w'.buffer
      | .error _ _ => []

def Call.uses (c : Call) (w : World) : List Use :=
  match c with
  | .read dst => readUses dst w.buffer
  | .write st src => writeUses st src w

/-! ## Which of them are met -/

def AllMet (uses : List Use) : Prop := ∀ use ∈ uses, use.Met

@[simp] theorem allMet_nil : AllMet [] := by simp [AllMet]

@[simp] theorem allMet_cons {use : Use} {uses : List Use} :
    AllMet (use :: uses) ↔ use.Met ∧ AllMet uses := by simp [AllMet]

@[simp] theorem allMet_append {uses more : List Use} :
    AllMet (uses ++ more) ↔ AllMet uses ∧ AllMet more := by
  simp [AllMet, or_imp, forall_and]

section Met

variable {b : Buffer} {q : List UInt8}

theorem active_length (b : Buffer) :
    b.active.length = if b.inView then b.bufView.size else b.buf.size := by
  unfold active
  split <;> rfl

theorem sizeUses_met (rep : Represents b q) : AllMet (sizeUses b) := by
  have le := rep.pos_le
  rw [active_length] at le
  unfold sizeUses
  split at le <;> simp_all [Use.Met]

theorem availableUses_met : AllMet (availableUses b) := by
  have within := b.buf.size_le_capacity
  unfold availableUses
  split <;> simp [Use.Met, StdString.size, within]

/-- The bytes that a member copies end where the stored bytes end, at most. -/
theorem pos_add_le (rep : Represents b q) {n : Nat} (le : n ≤ b.size) :
    b.pos + n ≤ b.active.length := by
  have length := congrArg List.length rep.unread
  rw [List.length_drop, ← rep.size_eq] at length
  have := rep.pos_le
  omega

theorem readUses_met_iff (rep : Represents b q) (dst : Span) :
    AllMet (readUses dst b) ↔ (b.inView = true → dst.size < b.size) := by
  have copied := pos_add_le rep (Nat.min_le_left b.size dst.size)
  have bound := b.active_length_le
  have whole := pos_add_le rep (Nat.le_refl b.size)
  have moved : addSize b.pos (min b.size dst.size) = b.pos + min b.size dst.size :=
    addSize_eq (by omega) (by omega)
  have size := rep.size_eq
  have unread := congrArg List.length rep.unread
  rw [List.length_drop] at unread
  rw [active_length] at copied whole unread
  simp only [readUses, moved, allMet_append, sizeUses_met rep, true_and]
  cases viewing : b.inView
  · simp only [viewing, Bool.false_eq_true, if_false] at copied whole unread ⊢
    simp [Use.Met]
    omega
  · simp only [viewing, if_true] at copied whole unread ⊢
    simp [Use.Met]
    omega

/-- Only the subscripts of a view can go wrong. -/
theorem readUses_met (rep : Represents b q) (dst : Span) :
    ∀ use ∈ readUses dst b, ¬ use.OfView → use.Met := by
  intro use member other
  cases viewing : b.inView
  · have all : AllMet (readUses dst b) := (readUses_met_iff rep dst).mpr (by simp [viewing])
    exact all use member
  · have copied := pos_add_le rep (Nat.min_le_left b.size dst.size)
    have sizes := sizeUses_met rep
    rw [active_length, viewing] at copied
    simp only [readUses, viewing, if_true, List.mem_append, List.mem_cons, List.not_mem_nil,
      or_false] at member
    obtain (inSize | rfl | rfl | rfl) | rfl := member
    · exact sizes use inSize
    · simp [Use.OfView] at other
    · simp [Use.OfView] at other
    · exact copied
    · simp only [Use.Met]
      omega

theorem ownViewUses_met (st : Storage) (src : Span) : AllMet (ownViewUses st src b) := by
  unfold ownViewUses
  split
  · split
    · rename_i room reserved
      obtain ⟨-, enough, -⟩ := StdString.reserve_eq_ok reserved
      rw [addSize_eq b.bufView.size_le src.size_le] at enough
      simp [Use.Met]
      omega
    · exact allMet_nil
  · exact allMet_nil

theorem subtraction_met (rep : Represents b q) : (Use.subtraction b.capacity b.size).Met := by
  have within := rep.length_le_capacity
  rw [← rep.size_eq] at within
  exact within

theorem stored_met (rep : Represents b q) (owning : b.inView = false) :
    (Use.stringSubscript b.pos b.buf.size).Met ∧ (Use.range b.pos b.size b.buf.size).Met := by
  have whole := pos_add_le rep (Nat.le_refl b.size)
  rw [active_of_owning owning] at whole
  refine ⟨?_, whole⟩
  have := Nat.le_of_add_right_le whole
  exact this

theorem reallocateUses_met (st : Storage) (src : Span) (rep : Represents b q)
    (owning : b.inView = false) : AllMet (reallocateUses st src b) := by
  obtain ⟨subscript, copied⟩ := stored_met rep owning
  have sizes := sizeUses_met rep
  unfold reallocateUses
  split
  · rename_i room reserved
    obtain ⟨-, enough, -⟩ := StdString.reserve_eq_ok reserved
    rw [rep.size_eq, addSize_eq rep.length_le src.size_le, ← rep.size_eq] at enough
    have fits : (Use.range 0 b.size room.capacity).Met := by
      simp only [Use.Met]
      omega
    simp [sizes, subscript, copied, fits]
  · simp [sizes]

theorem compactUses_met (rep : Represents b q) (owning : b.inView = false) :
    AllMet (compactUses b) := by
  obtain ⟨subscript, copied⟩ := stored_met rep owning
  have sizes := sizeUses_met rep
  have front : (Use.range 0 b.size b.buf.size).Met := by
    simp only [Use.Met] at copied ⊢
    omega
  simp [compactUses, sizes, subscript, copied, front]

theorem makeRoomUses_met (st : Storage) (src : Span) (rep : Represents b q)
    (owning : b.inView = false) : AllMet (makeRoomUses st src b) := by
  have free := subtraction_met rep
  have sizes := sizeUses_met rep
  have reallocates := reallocateUses_met st src rep owning
  have compacts := compactUses_met rep owning
  simp only [makeRoomUses, allMet_append, availableUses_met, true_and]
  split
  · rw [allMet_append, allMet_cons]
    refine ⟨sizes, free, ?_⟩
    split
    · exact reallocates
    · exact compacts
  · exact allMet_nil

end Met

theorem writeUses_met {w : World} {q : List UInt8} (st : Storage) (src : Span)
    (rep : Represents w.buffer q) : AllMet (writeUses st src w) := by
  unfold writeUses
  split
  · exact allMet_nil
  · rw [allMet_append]
    refine ⟨ownViewUses_met st src, ?_⟩
    split
    · rename_i w' owned
      obtain ⟨repOwned, owning⟩ := ownView_represents rep owned
      exact makeRoomUses_met st src repOwned owning
    · exact allMet_nil

/-- **The preconditions are met exactly as long as no view is read to its end.**  All
but the subscripts of a view are met in every run. -/
theorem preconditions_met_iff (made : Construction) (allocCounter : Option Nat)
    (calls : List Call) :
    ((∀ before c later, calls = before ++ c :: later →
        AllMet (c.uses (reach made allocCounter before))) ↔
      ∀ before dst later, calls = before ++ .read dst :: later →
        (reach made allocCounter before).buffer.inView = true →
          dst.size < (reach made allocCounter before).buffer.size) ∧
    (∀ before c later, calls = before ++ c :: later →
      ∀ use ∈ c.uses (reach made allocCounter before), ¬ use.OfView → use.Met) ∧
    AllMet (sizeUses (reach made allocCounter calls).buffer) ∧
    AllMet (availableUses (reach made allocCounter calls).buffer) := by
  have rep := fun before => reach_represents made allocCounter before
  refine ⟨?runs, ?others, sizeUses_met (rep calls), availableUses_met⟩
  case runs =>
    constructor
    · intro met before dst later split
      exact (readUses_met_iff (rep before) dst).mp (met before (.read dst) later split)
    · intro short before c later split
      cases c with
      | read dst =>
          exact (readUses_met_iff (rep before) dst).mpr (short before dst later split)
      | write st src => exact writeUses_met st src (rep before)
  case others =>
    intro before c later _
    cases c with
    | read dst => exact readUses_met (rep before) dst
    | write st src =>
        intro use member _
        exact writeUses_met st src (rep before) use member

/-- Reading all three characters of a view takes the address of a fourth. -/
theorem view_read_to_its_end :
    ¬ ∀ before c later, [Call.read ⟨[0, 0, 0], by decide⟩] = before ++ c :: later →
      AllMet (c.uses (reach (.ofView .exact ⟨[97, 98, 99], by decide⟩) none before)) := by
  intro met
  have all := met [] (.read ⟨[0, 0, 0], by decide⟩) [] rfl
  have subscript : (Use.viewSubscript 3 3).Met := all _ (by decide)
  exact absurd subscript (by simp [Use.Met])

end PatBase.Bytes.Buffer
