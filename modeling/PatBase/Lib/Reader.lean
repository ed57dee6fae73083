/-
# PatBase.Lib.Reader -- readers that deliver into a span

A reader answers `Read` with a count or a failure, and leaves the caller's span and
itself as they are after the call.  The bounds every reader owes its caller -- no
count above the span's length, no byte outside the span -- are fields of `Reader`,
so nothing else can be passed where a reader is expected.

`observed` records what is asked of a reader, for statements about code that uses
one.  `Serves` says that a reader hands out a sequence of bytes from its front; over
any number of reads, what was delivered and what it still holds are that sequence.
-/
import PatBase.Lib.StdString

namespace PatBase.Lib

set_option autoImplicit false

variable {ε σ : Type}

/-- What a `Read` leaves behind. -/
structure ReadResult (ε σ : Type) where
  count : Except ε Nat
  /-- The caller's span. -/
  span : List UInt8
  reader : σ

namespace ReadResult

/-- The bytes the caller got. -/
def delivered (r : ReadResult ε σ) : List UInt8 :=
  match r.count with
  | .ok k => r.span.take k
  | .error _ => []

end ReadResult

structure Reader (ε σ : Type) where
  read : σ → Span → ReadResult ε σ
  count_le : ∀ {s : σ} {buf : Span} {k : Nat}, (read s buf).count = .ok k → k ≤ buf.size
  span_length : ∀ (s : σ) (buf : Span), (read s buf).span.length = buf.size

/-- One `Read` made on a reader. -/
structure Seen where
  asked : Nat
  consumed : List UInt8
  deriving DecidableEq, Repr

namespace Reader

/-- The reader, with a record of what is asked of it. -/
def observed (r : Reader ε σ) : Reader ε (σ × List Seen) where
  read s buf :=
    let result := r.read s.1 buf
    ⟨result.count, result.span, result.reader, s.2 ++ [⟨buf.size, result.delivered⟩]⟩
  count_le counted := r.count_le counted
  span_length s buf := r.span_length s.1 buf

/-- In a state that holds `q`, every read delivers the front of `q`. -/
def Serves (r : Reader ε σ) (holds : σ → List UInt8 → Prop) : Prop :=
  ∀ {s : σ} {q : List UInt8} (buf : Span), holds s q →
    ∃ rest, q = (r.read s buf).delivered ++ rest ∧ holds (r.read s buf).reader rest

section Read

variable (r : Reader ε σ) (s : σ) (buf : Span)

theorem delivered_length_le : (r.read s buf).delivered.length ≤ buf.size := by
  unfold ReadResult.delivered
  split
  · rename_i k counted
    have bound := r.count_le counted
    simp only [List.length_take]
    omega
  · simp

end Read

end Reader

end PatBase.Lib
