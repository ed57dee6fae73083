/-
# PatBase.Io.StackedLimits -- a limiter behind a limiter

A `LimitedReader` is a reader, so it can be wrapped in another one.  For that the body
of `Read` is taken here over anything with a `Read` of its own (`limit`), with what a
caller sees of a call as its result (`Outcome`); over a reader of the library it is
`LimitedReader.read` (`limit_wrapped`).

The outer budget goes on shrinking on calls that the inner one refuses, so the two
counters drift apart once the inner one is spent.  What stays is that the smaller of
them is the budget of a single limiter (`Matches`), so the two cannot be told apart,
neither by the caller nor by the wrapped reader (`stacked_eq_min`).
-/
import PatBase.Io.LimitedReader

namespace PatBase.Io

open PatBase.Lib PatBase.Lib.Trace PatBase.Runtime

set_option autoImplicit false

/-- What the caller of a `Read` sees: an exception or the result, and its span. -/
structure Outcome where
  /-- The outer `.error` is a thrown `std::system_error`. -/
  result : Except ErrorCode (Except ErrorCode Nat)
  span : List UInt8
  deriving DecidableEq

/-- An answer of the limiter, as its caller sees it. -/
def Answer.outcome (buf : Span) : Answer → Outcome
  | .refused (.thrown code) => ⟨.error code, buf.1⟩
  | .refused (.unexpected code) => ⟨.ok (.error code), buf.1⟩
  | .wrapped count span => ⟨.ok count, span⟩

/-- The `Read` of whatever `r_` refers to. -/
abbrev Wrapped (σ : Type) := σ → Span → Outcome × σ

variable {σ : Type}

/-- A reader of the library behind the limiter. -/
def wrapped (reader : Reader ErrorCode σ) : Wrapped σ := fun r buf =>
  (⟨.ok (reader.read r buf).count, (reader.read r buf).span⟩, (reader.read r buf).reader)

/-- The wrapped reader, with a record of the spans it is asked to fill. -/
def recorded (r : Wrapped σ) : Wrapped (σ × List Span) := fun s buf =>
  ((r s.1 buf).1, ((r s.1 buf).2, s.2 ++ [buf]))

namespace LimitedReader

/-- `Read`; `async` is `AsyncReader<R>`, which is the same for `LimitedReader<R>`. -/
def limit (r : Wrapped σ) (async : Bool) : Wrapped (LimitedReader σ) := fun l buf =>
  if l.n.1 = 0 then
    ((Answer.eof async).outcome buf, l)
  else
    let passed := l.clamp buf
    let n := l.n.sub passed.sizeT
    let inner := r l.r passed
    (⟨inner.1.result, inner.1.span ++ buf.1.drop passed.size⟩, ⟨inner.2, n⟩)

theorem limit_wrapped (reader : Reader ErrorCode σ) (async : Bool) (l : LimitedReader σ)
    (buf : Span) :
    limit (wrapped reader) async l buf =
      ((read reader async l buf).1.outcome buf, (read reader async l buf).2) := by
  unfold limit read
  split
  · rfl
  · rfl

section Clamp

variable {l : LimitedReader σ} (buf : Span)

theorem clamp_bytes : (l.clamp buf).1 = buf.1.take l.n.1 := by
  unfold clamp
  split
  · simp [Span.subspan]
  · rename_i short
    exact (List.take_of_length_le (Nat.le_of_not_lt short)).symm

/-- The rest of the cut span and what was cut off. -/
theorem clamp_drop {k : Nat} (within : k ≤ (l.clamp buf).size) :
    (l.clamp buf).1.drop k ++ buf.1.drop (l.clamp buf).size = buf.1.drop k := by
  have whole : (l.clamp buf).1 ++ buf.1.drop (l.clamp buf).size = buf.1 := by
    have cut : (l.clamp buf).1 = buf.1.take (l.clamp buf).size := by
      rw [Span.size, clamp_bytes, List.length_take, ← List.take_eq_take_min]
    rw [cut, List.take_append_drop]
  calc
    (l.clamp buf).1.drop k ++ buf.1.drop (l.clamp buf).size
        = ((l.clamp buf).1 ++ buf.1.drop (l.clamp buf).size).drop k :=
      (List.drop_append_of_le_length within).symm
    _ = buf.1.drop k := by rw [whole]

/-- Cutting a span to one budget and then to another. -/
theorem clamp_clamp {τ υ : Type} {inner : LimitedReader τ} {single : LimitedReader υ}
    (smaller : min inner.n.1 l.n.1 = single.n.1) :
    inner.clamp (l.clamp buf) = single.clamp buf := by
  apply Subtype.ext
  rw [clamp_bytes, clamp_bytes, clamp_bytes, List.take_take, smaller]

/-- The budget that a call within it leaves. -/
theorem budget_after : (l.n.sub (l.clamp buf).sizeT).1 = l.n.1 - min buf.size l.n.1 := by
  have asked := clamp_size buf (l := l)
  rw [SizeT.sub_of_le (by rw [Span.sizeT_val, asked]; omega), Span.sizeT_val, asked]

end Clamp

/-! ## One limiter for two -/

/-- The stack has the reader of the single limiter, and the smaller of its two budgets is
the single one. -/
structure Matches (stacked : LimitedReader (LimitedReader σ)) (single : LimitedReader σ) :
    Prop where
  reader : stacked.r.r = single.r
  budget : min stacked.r.n.1 stacked.n.1 = single.n.1

section Step

variable (r : Wrapped σ) (async : Bool) (buf : Span)

/-- A call on a spent budget. -/
theorem limit_spent {l : LimitedReader σ} (spent : l.n.1 = 0) :
    limit r async l buf = ((Answer.eof async).outcome buf, l) :=
  if_pos spent

/-- A call that reaches the wrapped reader. -/
theorem limit_within {l : LimitedReader σ} (left : l.n.1 ≠ 0) :
    limit r async l buf =
      (⟨(r l.r (l.clamp buf)).1.result,
          (r l.r (l.clamp buf)).1.span ++ buf.1.drop (l.clamp buf).size⟩,
        ⟨(r l.r (l.clamp buf)).2, l.n.sub (l.clamp buf).sizeT⟩) :=
  if_neg left

/-- The span of a refused call is the caller's. -/
theorem eof_outcome (left : Span) :
    (Answer.eof async).outcome left = ⟨((Answer.eof async).outcome buf).result, left.1⟩ := by
  cases async
  · rfl
  · rfl

variable {stacked : LimitedReader (LimitedReader σ)} {single : LimitedReader σ}

theorem limit_matches (both : Matches stacked single) :
    (limit (limit r async) async stacked buf).1 = (limit r async single buf).1 ∧
      Matches (limit (limit r async) async stacked buf).2 (limit r async single buf).2 := by
  obtain ⟨reader, budget⟩ := both
  by_cases outer : stacked.n.1 = 0
  · have none_ : single.n.1 = 0 := by omega
    rw [limit_spent _ async buf outer, limit_spent r async buf none_]
    exact ⟨rfl, reader, budget⟩
  have charged := budget_after buf (l := stacked)
  by_cases inner : stacked.r.n.1 = 0
  · -- the outer budget is charged for a call that the inner limiter refuses
    have none_ : single.n.1 = 0 := by omega
    have whole := clamp_drop buf (l := stacked) (Nat.zero_le _)
    rw [limit_within _ async buf outer, limit_spent r async _ inner,
      limit_spent r async buf none_, eof_outcome async buf (stacked.clamp buf)]
    refine ⟨?_, reader, ?_⟩
    · rw [eof_outcome async buf buf]
      exact congrArg (Outcome.mk _) whole
    · show min stacked.r.n.1 (stacked.n.sub (stacked.clamp buf).sizeT).1 = single.n.1
      omega
  · have left : single.n.1 ≠ 0 := by omega
    have same : stacked.r.clamp (stacked.clamp buf) = single.clamp buf := clamp_clamp buf budget
    have chargedInner := budget_after (stacked.clamp buf) (l := stacked.r)
    have chargedSingle := budget_after buf (l := single)
    have size := clamp_size buf (l := stacked)
    rw [limit_within _ async buf outer, limit_within r async _ inner,
      limit_within r async buf left, reader, same]
    refine ⟨?span, rfl, ?budget⟩
    case span =>
      apply congrArg (Outcome.mk _)
      -- what the inner limiter and the outer one leave of the span, put together
      have within : (single.clamp buf).size ≤ (stacked.clamp buf).size := by
        rw [clamp_size, clamp_size]
        omega
      rw [List.append_assoc, clamp_drop buf within]
    case budget =>
      show min (stacked.r.n.sub _).1 (stacked.n.sub _).1 = (single.n.sub _).1
      rw [same] at chargedInner
      omega

end Step

/-- **A stack of limiters is one limiter with the smaller limit.**  Whatever is wrapped
and however it answers, every call gets the same result and leaves the same span, the
wrapped reader is asked for the same spans in the same order, and it is left in the
same state. -/
theorem stacked_eq_min (r : Wrapped σ) (async : Bool) (s : σ) (a b : SizeT)
    (bufs : List Span) :
    let stacked := specTrace (limit (limit (recorded r) async) async) ⟨⟨(s, []), a⟩, b⟩ bufs
    let single := specTrace (limit (recorded r) async) ⟨(s, []), min a b⟩ bufs
    stacked.1 = single.1 ∧ stacked.2.r.r = single.2.r := by
  intro stacked single
  have start : Matches (⟨⟨(s, ([] : List Span)), a⟩, b⟩ : LimitedReader _)
      ⟨(s, []), min a b⟩ := by
    exact ⟨rfl, rfl⟩
  have simulates : ∀ t u buf, Matches t u →
      (limit (limit (recorded r) async) async t buf).1 = (limit (recorded r) async u buf).1 ∧
        Matches (limit (limit (recorded r) async) async t buf).2
          (limit (recorded r) async u buf).2 :=
    fun t u buf both => limit_matches (recorded r) async buf both
  obtain ⟨answers, both⟩ := specTrace_refines simulates start bufs
  exact ⟨answers, both.reader⟩

end LimitedReader

end PatBase.Io
