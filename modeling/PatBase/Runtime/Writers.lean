/-
# PatBase.Runtime.Writers -- the three writers of the library

`Buffer`, `File` and the TCP stream all satisfy the writer concepts of io.h, whose
`Write` gives a count.  The buffer returns it, the file takes it from the result of
the request, and the stream takes it from the status of the request, which is 0 after
a success.  So the first two keep the contract of `PatBase.Lib.Writer`, and a caller
that goes on after the count the stream reports sends its message again.
-/
import PatBase.Bytes.BufferReader
import PatBase.Lib.Writer
import PatBase.Runtime.Operation

namespace PatBase.Runtime

open PatBase.Lib PatBase.Bytes

set_option autoImplicit false

inductive Destination where
  | buffer
  | file
  | stream
  deriving DecidableEq, Repr

namespace Destination

/-- What the kernel and libuv do with a write, and the result they report: for a file
and for a stream the state is what went out so far. -/
inductive Serves : Destination → List UInt8 → Span → Report → List UInt8 → Prop where
  /-- The system call accepts the first `k` bytes. -/
  | file (sent : List UInt8) (m : Span) (k : Nat) (res : Nat) (errno : Int) (short : k ≤ m.size) :
      Serves .file sent m ⟨k, res, errno⟩ (sent ++ m.1.take k)
  | fileFailed (sent : List UInt8) (m : Span) (report : Report) (failed : report.result < 0) :
      Serves .file sent m report sent
  /-- Libuv calls back with 0 only after the whole message went out. -/
  | stream (sent : List UInt8) (m : Span) (res : Nat) (errno : Int) :
      Serves .stream sent m ⟨0, res, errno⟩ (sent ++ m.1)
  | streamFailed (sent : List UInt8) (m : Span) (k : Nat) (report : Report)
      (failed : report.result < 0) : Serves .stream sent m report (sent ++ m.1.take k)

/-- A write whose callback completes with a count. -/
def completes (d : Destination) (operation : Operation) (sent : List UInt8) (m : Span) (k : Nat)
    (sent' : List UInt8) : Prop :=
  ∃ report, d.Serves sent m report sent' ∧ operation.callback report = .setValue (.count k)

def State : Destination → Type
  | .buffer => Buffer.Readable
  | .file => List UInt8
  | .stream => List UInt8

/-- `Buffer::Write`, `File::Write` and `Stream::Write` -/
def writer : (d : Destination) → Writer d.State
  | .buffer =>
      { write := fun (b : Buffer.Readable) m k (b' : Buffer.Readable) =>
          ∃ st, Buffer.write st m b.1 = .ok k b'.1
        sink := Buffer.Readable.unread }
  | .file =>
      { write := completes .file Operation.writeOp
        sink := id }
  | .stream =>
      { write := completes .stream Operation.streamWriteOp
        sink := id }

/-! ## Counts -/

theorem buffer_honours (m : Span) : (writer .buffer).HonoursCount m := by
  rintro (b : Buffer.Readable) k (b' : Buffer.Readable) ⟨st, completed⟩
  obtain ⟨rfl, grown⟩ := Buffer.write_spec b.represents completed
  refine ⟨Nat.le_refl _, ?_⟩
  show b'.unread = b.unread ++ m.1.take m.1.length
  rw [List.take_length]
  exact grown.unread

theorem file_honours (m : Span) : (writer .file).HonoursCount m := by
  rintro sent k sent' ⟨report, served, value⟩
  cases served with
  | file _ _ accepted res errno short =>
      have counted : complete (fun bytes => .count bytes.toNat) accepted =
          .setValue (.count accepted) := if_neg (by omega)
      have same : Completion.setValue (.count accepted) = .setValue (.count k) :=
        counted.symm.trans value
      simp only [Completion.setValue.injEq, Value.count.injEq] at same
      obtain rfl := same
      exact ⟨short, rfl⟩
  | fileFailed _ _ _ failed =>
      simp [Operation.writeOp, failed] at value

/-- A stream write that completes reports 0, whatever was sent. -/
theorem stream_completes_iff {sent sent' : List UInt8} {m : Span} {k : Nat} :
    completes .stream Operation.streamWriteOp sent m k sent' ↔ k = 0 ∧ sent' = sent ++ m.1 := by
  constructor
  · rintro ⟨report, served, value⟩
    cases served with
    | stream _ _ res errno =>
        simp [Operation.streamWriteOp, complete] at value
        exact ⟨value.symm, rfl⟩
    | streamFailed _ _ _ _ failed =>
        simp [Operation.streamWriteOp, complete, failed, uvError] at value
  · rintro ⟨rfl, rfl⟩
    exact ⟨⟨0, 0, 0⟩, .stream sent m 0 0, rfl⟩

theorem stream_honours_iff (m : Span) : (writer .stream).HonoursCount m ↔ m.1 = [] := by
  constructor
  · intro honours
    obtain ⟨-, accepted⟩ := honours [] 0 m.1 (stream_completes_iff.mpr ⟨rfl, rfl⟩)
    have nothing : m.1 = ([] : List UInt8) ++ m.1.take 0 := accepted
    simpa using nothing
  · intro empty (sent : List UInt8) k sent' completed
    obtain ⟨rfl, rfl⟩ := stream_completes_iff.mp completed
    refine ⟨Nat.zero_le _, ?_⟩
    show sent ++ m.1 = sent ++ m.1.take 0
    rw [empty, List.take_zero]

theorem honours_iff (d : Destination) (m : Span) :
    d.writer.HonoursCount m ↔ d ≠ .stream ∨ m.1 = [] := by
  cases d with
  | buffer => simp [buffer_honours m]
  | file => simp [file_honours m]
  | stream => simp [stream_honours_iff m]

/-- **The count contract**, and what a caller's loop makes of it: they hold of the
buffer and the file, and of the stream for the empty message only. -/
theorem count_contract_iff (d : Destination) (m : Span) :
    (d.writer.HonoursCount m ↔ d ≠ .stream ∨ m.1 = []) ∧
      ((∀ s s' rest, d.writer.Loop s m s' rest →
        d.writer.sink s' ++ rest.1 = d.writer.sink s ++ m.1) ↔ d ≠ .stream ∨ m.1 = []) := by
  refine ⟨honours_iff d m, ?_, ?_⟩
  · intro delivers
    by_cases other : d = .stream
    · right
      obtain rfl := other
      -- After one round the message is out and still in the caller's hand.
      have sent : (writer .stream).Loop [] m m.1 (m.drop 0) := by
        by_cases empty : m.1 = []
        · rw [empty]
          exact .start
        · exact .write .start empty (stream_completes_iff.mpr ⟨rfl, rfl⟩)
      have twice : m.1 ++ m.1.drop 0 = [] ++ m.1 := delivers [] m.1 (m.drop 0) sent
      simpa using twice
    · exact .inl other
  · rintro (other | empty) s s' rest loop
    · exact loop.sink_append_rest fun m => (honours_iff d m).mpr (.inl other)
    · obtain ⟨rfl, rfl⟩ := loop.of_empty empty
      rfl

theorem threeBytes_fit : [(1 : UInt8), 2, 3].length ≤ maxSize := by decide

/-- The message of a caller. -/
def threeBytes : Span := ⟨[1, 2, 3], threeBytes_fit⟩

/-- The stream does not keep the contract, and a caller that trusts its count sends
the message twice and has it still to send. -/
theorem stream_sends_twice :
    ¬ (writer .stream).HonoursCount threeBytes ∧
      (writer .stream).Loop ([] : List UInt8) threeBytes ([1, 2, 3, 1, 2, 3] : List UInt8)
        threeBytes := by
  have left : threeBytes.1 ≠ [] := by decide
  have first : (writer .stream).write ([] : List UInt8) threeBytes 0 ([1, 2, 3] : List UInt8) :=
    stream_completes_iff.mpr ⟨rfl, rfl⟩
  have second : (writer .stream).write ([1, 2, 3] : List UInt8) threeBytes 0
      ([1, 2, 3, 1, 2, 3] : List UInt8) := stream_completes_iff.mpr ⟨rfl, rfl⟩
  have once : (writer .stream).Loop ([] : List UInt8) threeBytes ([1, 2, 3] : List UInt8)
      threeBytes := Writer.Loop.write .start left first
  refine ⟨?_, Writer.Loop.write once left second⟩
  rw [stream_honours_iff]
  exact left

end Destination

end PatBase.Runtime
