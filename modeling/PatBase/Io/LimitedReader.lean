/-
# PatBase.Io.LimitedReader -- `pat::io::LimitedReader`

limited_reader.h wraps a reader and lets at most `n` bytes through.  Its two
specialisations, over an lvalue and over an rvalue, have the same text for `Read`,
so `read` is both.

The wrapped reader is an arbitrary `Reader`.  It is asked for exactly what the
caller wants within the budget, and never once the budget is spent; the bytes that
come out are the ones that went in, at most `n` of them (`limit_respected`).  The
budget shrinks by what was asked for and not by what came: it is the number of bytes
still allowed exactly as long as every read is filled (`accounts_iff_filled`).
-/
import Mathlib.Data.List.Induction
import PatBase.Bytes.BufferReader
import PatBase.Runtime.Completion

namespace PatBase.Io

open PatBase.Lib PatBase.Lib.Trace PatBase.Bytes PatBase.Runtime

set_option autoImplicit false

/-- How the limiter fails a call. -/
inductive Refusal where
  /-- `throw std::system_error(...)` -/
  | thrown (code : ErrorCode)
  /-- `return std::unexpected(...)` -/
  | unexpected (code : ErrorCode)
  deriving DecidableEq, Repr

/-- What the caller of `Read` gets. -/
inductive Answer where
  | refused (refusal : Refusal)
  /-- What the wrapped reader answered, and the caller's span after it. -/
  | wrapped (count : Except ErrorCode Nat) (span : List UInt8)
  deriving DecidableEq

namespace Answer

/-- The limiter fails the call itself: `if constexpr (AsyncReader<R>)`. -/
def eof (async : Bool) : Answer :=
  if async then .refused (.thrown IoError.kEOF.makeErrorCode)
  else .refused (.unexpected IoError.kEOF.makeErrorCode)

def delivered : Answer → List UInt8
  | .wrapped (.ok k) span => span.take k
  | .wrapped (.error _) _ => []
  | .refused _ => []

end Answer

/-- `r_` and `n_` -/
structure LimitedReader (σ : Type) where
  r : σ
  n : SizeT

namespace LimitedReader

variable {σ : Type}

/-- The span that `Read` passes on. -/
def clamp (l : LimitedReader σ) (buf : Span) : Span :=
  if buf.size > l.n.1 then buf.subspan 0 l.n.1 else buf

/-- `Read`; `async` is `AsyncReader<R>`. -/
def read (reader : Reader ErrorCode σ) (async : Bool) (l : LimitedReader σ) (buf : Span) :
    Answer × LimitedReader σ :=
  if l.n.1 = 0 then
    (.eof async, l)
  else
    let passed := l.clamp buf
    let n := l.n.sub passed.sizeT
    let result := reader.read l.r passed
    (.wrapped result.count (result.span ++ buf.1.drop passed.size), ⟨result.reader, n⟩)

def run (reader : Reader ErrorCode σ) (async : Bool) (l : LimitedReader σ) (bufs : List Span) :
    List Answer × LimitedReader σ :=
  specTrace (read reader async) l bufs

/-- The bytes a run of `Read`s hands to its caller. -/
def output (answers : List Answer) : List UInt8 := answers.flatMap Answer.delivered

/-! ## One call -/

section Read

variable (reader : Reader ErrorCode σ) (async : Bool) (buf : Span) {l : LimitedReader σ}

theorem clamp_size : (l.clamp buf).size = min buf.size l.n.1 := by
  unfold clamp
  split
  · simp only [Span.subspan_size]
    omega
  · omega

/-- A call on a spent budget. -/
theorem read_spent (spent : l.n.1 = 0) :
    (read reader async l buf).1 = .eof async ∧ (read reader async l buf).1.delivered = [] ∧
      (read reader async l buf).2 = l := by
  unfold read
  rw [if_pos spent]
  refine ⟨rfl, ?_, rfl⟩
  cases async <;> rfl

/-- A call that reaches the wrapped reader. -/
theorem read_within (left : l.n.1 ≠ 0) :
    (read reader async l buf).1 ≠ .eof async ∧
      (read reader async l buf).1.delivered = (reader.read l.r (l.clamp buf)).delivered ∧
      (read reader async l buf).2.r = (reader.read l.r (l.clamp buf)).reader ∧
      (read reader async l buf).2.n.1 + min buf.size l.n.1 = l.n.1 := by
  have asked := clamp_size buf (l := l)
  unfold read
  rw [if_neg left]
  refine ⟨?own, ?bytes, rfl, ?budget⟩
  case own =>
    intro refused
    cases async <;> cases refused
  case bytes =>
    show Answer.delivered _ = ReadResult.delivered _
    unfold ReadResult.delivered
    split
    · rename_i k counted
      have bound := reader.count_le counted
      have length := reader.span_length l.r (l.clamp buf)
      simp only [Answer.delivered, counted]
      rw [List.take_append_of_le_length (by omega)]
    · rename_i code failed
      simp only [Answer.delivered, failed]
  case budget =>
    show (l.n.sub (l.clamp buf).sizeT).1 + _ = _
    rw [SizeT.sub_of_le (by rw [Span.sizeT_val, asked]; omega), Span.sizeT_val, asked]
    omega

theorem read_eq_eof_iff : (read reader async l buf).1 = .eof async ↔ l.n.1 = 0 := by
  constructor
  · intro eof
    apply Classical.byContradiction
    intro left
    exact (read_within reader async buf left).1 eof
  · intro spent
    exact (read_spent reader async buf spent).1

/-- A call delivers no more than it takes off the budget. -/
theorem read_delivered_le :
    (read reader async l buf).1.delivered.length + (read reader async l buf).2.n.1 ≤ l.n.1 := by
  by_cases spent : l.n.1 = 0
  · obtain ⟨-, nothing, same⟩ := read_spent reader async buf spent
    rw [nothing, same]
    simp
  · obtain ⟨-, bytes, -, budget⟩ := read_within reader async buf spent
    have bound := reader.delivered_length_le l.r (l.clamp buf)
    rw [clamp_size] at bound
    rw [bytes]
    omega

end Read

/-! ## Runs -/

section Run

variable (reader : Reader ErrorCode σ) (async : Bool) (l : LimitedReader σ) (bufs : List Span)

theorem run_snoc (buf : Span) :
    run reader async l (bufs ++ [buf]) =
      ((run reader async l bufs).1 ++ [(read reader async (run reader async l bufs).2 buf).1],
        (read reader async (run reader async l bufs).2 buf).2) :=
  specTrace_snoc (read reader async) l bufs buf

theorem output_snoc (answers : List Answer) (a : Answer) :
    output (answers ++ [a]) = output answers ++ a.delivered := by
  simp [output]

/-- The budget bounds what is still to come. -/
theorem run_output_le :
    (output (run reader async l bufs).1).length + (run reader async l bufs).2.n.1 ≤ l.n.1 := by
  induction bufs using List.reverseRecOn with
  | nil => simp [run, specTrace, output]
  | append_singleton bufs buf ih =>
      have last := read_delivered_le reader async buf (l := (run reader async l bufs).2)
      simp only [run_snoc, output_snoc, List.length_append]
      omega

/-- A spent budget stays spent: the limiter answers every later call itself. -/
theorem run_spent (spent : l.n.1 = 0) :
    (∀ a ∈ (run reader async l bufs).1, a = .eof async) ∧ (run reader async l bufs).2 = l := by
  induction bufs using List.reverseRecOn with
  | nil => simp [run, specTrace]
  | append_singleton bufs buf ih =>
      obtain ⟨refused, same⟩ := ih
      rw [run_snoc, same]
      obtain ⟨eof, -, kept⟩ := read_spent reader async buf spent
      refine ⟨?_, kept⟩
      intro a member
      obtain earlier | last := List.mem_append.mp member
      · exact refused a earlier
      · rw [List.mem_singleton.mp last]
        exact eof

/-- What comes out of the limiter comes out of the wrapped reader. -/
theorem run_serves {holds : σ → List UInt8 → Prop} (serves : reader.Serves holds)
    {q : List UInt8} (start : holds l.r q) :
    ∃ rest, q = output (run reader async l bufs).1 ++ rest ∧
      holds (run reader async l bufs).2.r rest := by
  induction bufs using List.reverseRecOn with
  | nil => exact ⟨q, rfl, start⟩
  | append_singleton bufs buf ih =>
      obtain ⟨rest, split, held⟩ := ih
      rw [run_snoc, output_snoc]
      by_cases spent : (run reader async l bufs).2.n.1 = 0
      · obtain ⟨-, nothing, same⟩ := read_spent reader async buf spent
        rw [nothing, same, List.append_nil]
        exact ⟨rest, split, held⟩
      · obtain ⟨-, bytes, after, -⟩ := read_within reader async buf spent
        obtain ⟨rest', front, held'⟩ := serves ((run reader async l bufs).2.clamp buf) held
        refine ⟨rest', ?_, after ▸ held'⟩
        rw [bytes, split, List.append_assoc, ← front]

end Run

/-! ## What the wrapped reader is asked -/

/-- The limiter without the record of its wrapped reader. -/
def erase (l : LimitedReader (σ × List Seen)) : LimitedReader σ := ⟨l.r.1, l.n⟩

section Observed

variable (reader : Reader ErrorCode σ) (async : Bool) (l : LimitedReader (σ × List Seen))

theorem read_observed (buf : Span) :
    (read reader.observed async l buf).1 = (read reader async l.erase buf).1 ∧
      (read reader.observed async l buf).2.erase = (read reader async l.erase buf).2 := by
  unfold read
  by_cases spent : l.n.1 = 0
  · simp [spent, erase]
  · simp only [spent, erase, if_false]
    exact ⟨rfl, rfl⟩

/-- The record of a call within the budget: one read of what the caller wants, cut to
the budget. -/
theorem read_observed_log (buf : Span) (left : l.n.1 ≠ 0) :
    (read reader.observed async l buf).2.r.2 =
      l.r.2 ++ [⟨min buf.size l.n.1, (read reader.observed async l buf).1.delivered⟩] := by
  obtain ⟨-, bytes, after, -⟩ := read_within reader.observed async buf left
  rw [after, bytes]
  show l.r.2 ++ [⟨(l.clamp buf).size, _⟩] = _
  rw [clamp_size]
  rfl

theorem run_observed (bufs : List Span) :
    (run reader.observed async l bufs).1 = (run reader async l.erase bufs).1 ∧
      (run reader.observed async l bufs).2.erase = (run reader async l.erase bufs).2 := by
  induction bufs using List.reverseRecOn with
  | nil => exact ⟨rfl, rfl⟩
  | append_singleton bufs buf ih =>
      obtain ⟨answers, same⟩ := ih
      obtain ⟨answer, after⟩ := read_observed reader async (run reader.observed async l bufs).2 buf
      simp only [run_snoc, answers, answer, after, same, and_self]

/-- Everything taken from the wrapped reader is handed on, in order. -/
theorem run_observed_consumed (bufs : List Span) :
    (run reader.observed async l bufs).2.r.2.flatMap Seen.consumed =
      l.r.2.flatMap Seen.consumed ++ output (run reader.observed async l bufs).1 := by
  induction bufs using List.reverseRecOn with
  | nil => simp [run, specTrace, output]
  | append_singleton bufs buf ih =>
      simp only [run_snoc, output_snoc]
      by_cases spent : (run reader.observed async l bufs).2.n.1 = 0
      · obtain ⟨-, nothing, same⟩ := read_spent reader.observed async buf spent
        rw [nothing, same, List.append_nil, ih]
      · rw [read_observed_log reader async _ buf spent, List.flatMap_append, ih]
        simp

end Observed

/-! ## The limit -/

/-- **The limit is respected.** -/
theorem limit_respected (reader : Reader ErrorCode σ) (async : Bool) (s : σ) (w : Buffer.Readable)
    (n : SizeT) (bufs : List Span) (buf : Span) (later : List Span) :
    let before := run reader.observed async ⟨(s, []), n⟩ bufs
    let call := read reader.observed async before.2 buf
    before.1 = (run reader async ⟨s, n⟩ bufs).1 ∧
      (if before.2.n.1 = 0 then
        (∀ a ∈ (run reader.observed async before.2 later).1, a = .eof async) ∧
          (run reader.observed async before.2 later).2 = before.2
      else
        call.2.n.1 + min buf.size before.2.n.1 = before.2.n.1 ∧
          call.2.r.2 = before.2.r.2 ++ [⟨min buf.size before.2.n.1, call.1.delivered⟩]) ∧
      output before.1 = before.2.r.2.flatMap Seen.consumed ∧
      (output before.1).length ≤ n.1 ∧
      output (run (Buffer.reader ErrorCode) async ⟨w, n⟩ bufs).1 ++
        (run (Buffer.reader ErrorCode) async ⟨w, n⟩ bufs).2.r.unread = w.unread := by
  intro before call
  refine ⟨(run_observed reader async _ bufs).1, ?calls, ?bytes, ?limit, ?buffer⟩
  case calls =>
    split
    · rename_i spent
      exact run_spent reader.observed async before.2 later spent
    · rename_i left
      obtain ⟨-, -, -, budget⟩ := read_within reader.observed async buf left
      exact ⟨budget, read_observed_log reader async before.2 buf left⟩
  case bytes =>
    have consumed := run_observed_consumed reader async ⟨(s, []), n⟩ bufs
    exact consumed.symm
  case limit =>
    have bound := run_output_le reader.observed async ⟨(s, []), n⟩ bufs
    exact Nat.le_of_add_right_le bound
  case buffer =>
    obtain ⟨rest, split, rfl⟩ :=
      run_serves (Buffer.reader ErrorCode) async ⟨w, n⟩ bufs (Buffer.reader_serves ErrorCode) rfl
    exact split.symm

/-! ## The budget -/

/-- The call gets all it asks for, as far as the budget goes. -/
def Filled (reader : Reader ErrorCode σ) (l : LimitedReader σ) (buf : Span) : Prop :=
  l.n.1 = 0 ∨ (reader.read l.r (l.clamp buf)).delivered.length = min buf.size l.n.1

/-- After every call of the run the budget is what the limit leaves of the bytes
delivered so far, and the limiter fails a call itself exactly when it has delivered
its limit. -/
def Accounts (reader : Reader ErrorCode σ) (async : Bool) (l : LimitedReader σ)
    (bufs : List Span) : Prop :=
  ∀ before buf after, bufs = before ++ buf :: after →
    let reached := run reader async l before
    let call := read reader async reached.2 buf
    call.2.n.1 = l.n.1 - (output reached.1 ++ call.1.delivered).length ∧
      (call.1 = .eof async ↔ (output reached.1).length = l.n.1)

section Budget

variable (reader : Reader ErrorCode σ) (async : Bool) (l : LimitedReader σ)

/-- The budget and the bytes delivered make up the limit. -/
def Exact (bufs : List Span) : Prop :=
  (output (run reader async l bufs).1).length + (run reader async l bufs).2.n.1 = l.n.1

/-- One call keeps the budget exact if it is filled, and only then. -/
theorem exact_snoc_iff {bufs : List Span} {buf : Span} (soFar : Exact reader async l bufs) :
    Exact reader async l (bufs ++ [buf]) ↔ Filled reader (run reader async l bufs).2 buf := by
  unfold Exact Filled at *
  simp only [run_snoc, output_snoc, List.length_append]
  by_cases spent : (run reader async l bufs).2.n.1 = 0
  · obtain ⟨-, nothing, same⟩ := read_spent reader async buf spent
    rw [nothing, same]
    constructor
    · intro _
      exact .inl spent
    · intro _
      simpa using soFar
  · obtain ⟨-, bytes, -, budget⟩ := read_within reader async buf spent
    rw [bytes]
    omega

theorem accounts_iff_exact (bufs : List Span) :
    Accounts reader async l bufs ↔
      ∀ before after, bufs = before ++ after → Exact reader async l before := by
  constructor
  · intro accounts before after split
    induction before using List.reverseRecOn with
    | nil => simp [Exact, run, specTrace, output]
    | append_singleton before buf _ =>
        obtain ⟨counts, -⟩ := accounts before buf after (by simpa using split)
        have bound := run_output_le reader async l (before ++ [buf])
        simp only [Exact, run_snoc, output_snoc] at bound ⊢
        omega
  · intro exactly before buf after split
    have soFar := exactly before (buf :: after) split
    have next := exactly (before ++ [buf]) after (by simpa using split)
    simp only [Exact, run_snoc, output_snoc] at soFar next
    refine ⟨by omega, ?_⟩
    rw [read_eq_eof_iff]
    omega

/-- **The budget counts what is delivered exactly as long as every read is filled.** -/
theorem accounts_iff_filled (bufs : List Span) :
    Accounts reader async l bufs ↔
      ∀ before buf after, bufs = before ++ buf :: after →
        Filled reader (run reader async l before).2 buf := by
  rw [accounts_iff_exact]
  constructor
  · intro exactly before buf after split
    have next := exactly (before ++ [buf]) after (by simpa using split)
    exact (exact_snoc_iff reader async l (exactly before (buf :: after) split)).mp next
  · intro filled before
    -- The budget is exact as long as it was exact before the last call of the prefix.
    induction before using List.reverseRecOn with
    | nil =>
        intro _ _
        simp [Exact, run, specTrace, output]
    | append_singleton before buf ih =>
        intro after split
        have split' : bufs = before ++ buf :: after := by simpa using split
        rw [exact_snoc_iff reader async l (ih (buf :: after) split')]
        exact filled before buf after split'

/-- A buffer that holds three bytes. -/
def threeBytes : Buffer.Readable :=
  ⟨⟨Buffer.ofView .exact ⟨[1, 2, 3], by decide⟩, none⟩, Nat.zero_le _⟩

/-- Three of five bytes come, five leave the budget of ten. -/
theorem short_read_spends_budget :
    ¬ Accounts (Buffer.reader ErrorCode) false ⟨threeBytes, ⟨10, by decide⟩⟩
      [⟨[0, 0, 0, 0, 0], by decide⟩] := by
  intro accounts
  have counts := (accounts [] ⟨[0, 0, 0, 0, 0], by decide⟩ [] rfl).1
  exact absurd counts (by decide)

end Budget

end LimitedReader

end PatBase.Io
