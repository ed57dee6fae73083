/-
# PatBase.Bytes.BufferReader -- a `Buffer` is a reader

`Read` of a buffer never fails and hands out the unread bytes from the front, so a
buffer can stand wherever a `Reader` is wanted.  Its state is a buffer with the
invariant that `read` needs.
-/
import PatBase.Bytes.BufferFifo
import PatBase.Lib.Reader

namespace PatBase.Bytes.Buffer

open PatBase.Lib PatBase.Lib.Effect

set_option autoImplicit false

/-- A buffer whose `pos_` has not passed the end, as every construction and every
call leaves it. -/
abbrev Readable := { w : World // w.buffer.pos ≤ w.buffer.active.length }

namespace Readable

def unread (w : Readable) : List UInt8 := w.1.buffer.unreadBytes

theorem represents (w : Readable) : Represents w.1.buffer w.unread := ⟨w.2, rfl⟩

/-- Everything a `Read` of a buffer can have done. -/
theorem read_eq_ok {w : Readable} {buf : Span} {k : Nat} {span : List UInt8} {w' : World}
    (completed : Buffer.read buf w.1 = .ok (k, span) w') :
    k = min w.unread.length buf.size ∧ span = w.unread.take k ++ buf.1.drop k ∧
      Represents w'.buffer (w.unread.drop k) := by
  obtain ⟨r, reads, kept⟩ := Buffer.read_spec w.represents buf
  obtain ⟨answer, rfl⟩ := EStateM.Result.ok.inj (reads.symm.trans completed)
  obtain ⟨rfl, rfl⟩ := Prod.mk.inj answer
  exact ⟨rfl, rfl, kept⟩

theorem read_ne_error {w : Readable} {buf : Span} {f : Fault} {w' : World} :
    Buffer.read buf w.1 ≠ .error f w' := by
  intro thrown
  obtain ⟨r, reads, -⟩ := Buffer.read_spec w.represents buf
  cases reads.symm.trans thrown

/-- `Read`, for a caller that knows only readers. -/
def read (ε : Type) (w : Readable) (buf : Span) : ReadResult ε Readable :=
  match completed : Buffer.read buf w.1 with
  | .ok (k, span) w' => ⟨.ok k, span, ⟨w', (read_eq_ok completed).2.2.pos_le⟩⟩
  | .error _ _ => (read_ne_error completed).elim

theorem read_spec (ε : Type) (w : Readable) (buf : Span) :
    (w.read ε buf).count = .ok (min w.unread.length buf.size) ∧
      (w.read ε buf).span = w.unread.take (min w.unread.length buf.size) ++
        buf.1.drop (min w.unread.length buf.size) ∧
      (w.read ε buf).reader.unread = w.unread.drop (min w.unread.length buf.size) := by
  unfold read
  split
  · rename_i k span w' completed
    obtain ⟨rfl, rfl, kept⟩ := read_eq_ok completed
    exact ⟨rfl, rfl, kept.unread⟩
  · rename_i thrown
    exact absurd thrown read_ne_error

theorem read_count_le {ε : Type} {w : Readable} {buf : Span} {k : Nat}
    (counted : (w.read ε buf).count = .ok k) : k ≤ buf.size := by
  obtain ⟨count, -, -⟩ := w.read_spec ε buf
  obtain rfl := Except.ok.inj (count.symm.trans counted)
  exact Nat.min_le_right _ _

theorem read_span_length (ε : Type) (w : Readable) (buf : Span) :
    (w.read ε buf).span.length = buf.size := by
  obtain ⟨-, span, -⟩ := w.read_spec ε buf
  rw [span]
  simp only [List.length_append, List.length_take, List.length_drop, Span.size]
  omega

end Readable

/-- `Buffer` as a reader, with failures of any type: it has none. -/
def reader (ε : Type) : Reader ε Readable where
  read := Readable.read ε
  count_le := Readable.read_count_le
  span_length := Readable.read_span_length ε

theorem reader_serves (ε : Type) : (reader ε).Serves fun w q => w.unread = q := by
  intro w q buf holds
  obtain ⟨count, span, rest⟩ := w.read_spec ε buf
  refine ⟨w.unread.drop (min w.unread.length buf.size), ?_, rest⟩
  show q = ReadResult.delivered (w.read ε buf) ++ _
  unfold ReadResult.delivered
  rw [count, span, ← holds]
  simp only
  rw [List.take_append_of_le_length (by simp), List.take_take, Nat.min_self,
    List.take_append_drop]

end PatBase.Bytes.Buffer
