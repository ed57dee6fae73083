/-
# PatBase.Io.EndOfData -- how each reader says that there is no more

A consumer reads any `Reader` until it fails with `kEOF`.  The stream fails so when it
reads the FIN of its peer, the `LimitedReader` when its budget is spent; the `Buffer` and
the `File` succeed with 0 bytes for ever.  `Source` is any of them, limiters stacked on one
another included, with what it still holds.  The kernel decides how many bytes a read
gives: at least one of a file while there are any, but none of a stream if the Read was
started inside the completion of one that took all that had arrived.

`complete_iff`: the consumer ends with everything, and every read past the end says so,
exactly as long as no read runs into the end of a buffer or a file or comes between the
last byte and the FIN of a stream, and no limiter charges a read for bytes that would
still be missing at its end.
-/
import PatBase.Io.StackedLimits
import PatBase.Lib.Drain
import PatBase.Runtime.Operation

namespace PatBase.Io

open PatBase.Lib PatBase.Bytes PatBase.Runtime

set_option autoImplicit false

/-! ## Outcomes -/

namespace Outcome

/-- The call fails with `IoError::kEOF`: it throws, or its result is that error. -/
def isEof (o : Outcome) : Bool :=
  o.result = .error IoError.kEOF.makeErrorCode ∨
    o.result = .ok (.error IoError.kEOF.makeErrorCode)

/-- The bytes the caller got. -/
def delivered (o : Outcome) : List UInt8 :=
  match o.result with
  | .ok (.ok k) => o.span.take k
  | _ => []

theorem isEof_congr {o o' : Outcome} (same : o.result = o'.result) : o.isEof = o'.isEof := by
  unfold isEof
  rw [same]

/-- What lies behind the bytes delivered does not matter. -/
theorem delivered_append {o : Outcome} {tail : List UInt8}
    (bound : ∀ k, o.result = .ok (.ok k) → k ≤ o.span.length) :
    delivered ⟨o.result, o.span ++ tail⟩ = o.delivered := by
  simp only [delivered]
  rcases counted : o.result with _ | _ | k
  · rfl
  · rfl
  · exact List.take_append_of_le_length (bound k counted)

end Outcome

/-- The result of a Read whose operation completes so. -/
def received : Completion → Except ErrorCode Nat
  | .setValue (.count k) => .ok k
  | .setValue _ => .ok 0
  | .setError (.exception code) => .error code
  | .setError (.code code) => .error code

def uvENOBUFS : Int := -105

/-! ## Readers without a limit -/

/-- What is still to come from a file, and the most bytes that the kernel gives to each of
the reads to come. -/
structure Incoming where
  rest : List UInt8
  chunks : Nat → Nat

namespace Incoming

/-- The bytes a read gives: at least one, if there is one and it is asked for. -/
def served (d : Incoming) (asked : Nat) : Nat :=
  min (min asked d.rest.length) (max 1 (d.chunks 0))

def next (d : Incoming) (k : Nat) : Incoming := ⟨d.rest.drop k, fun n => d.chunks (n + 1)⟩

end Incoming

/-- What is still to come from a peer that has closed, and the most bytes that each of the
reads to come finds in the socket; a read with 0 finds not even the FIN there. -/
structure Peer where
  rest : List UInt8
  chunks : Nat → Nat
  /-- Libuv waits until the socket is readable. -/
  arrives : ∀ n, ∃ m, n ≤ m ∧ 0 < chunks m
  /-- The FIN has been read. -/
  ended : Bool

namespace Peer

/-- The next read finds the FIN. -/
def atEnd (p : Peer) : Bool := p.rest = [] ∧ (p.ended = true ∨ 0 < p.chunks 0)

/-- The bytes a read gives. -/
def served (p : Peer) (asked : Nat) : Nat := min (min asked p.rest.length) (p.chunks 0)

/-- What libuv reports; it is 0 where the socket was empty. -/
def nread (p : Peer) (asked : Nat) : Int :=
  if asked = 0 then uvENOBUFS
  else if p.atEnd then uvEOF
  else p.served asked

def next (p : Peer) (k : Nat) : Peer where
  rest := p.rest.drop k
  chunks := fun n => p.chunks (n + 1)
  arrives := by
    intro n
    obtain ⟨m, later, some_⟩ := p.arrives (n + 1)
    have back : m - 1 + 1 = m := by omega
    exact ⟨m - 1, by omega, back ▸ some_⟩
  ended := p.atEnd

end Peer

inductive Base where
  | buffer (b : Buffer.Readable)
  | file (d : Incoming)
  | stream (p : Peer)

namespace Base

/-- `Buffer::Read`, `File::Read` and `Stream::Read` -/
def read : Wrapped Base
  | .buffer b, buf =>
      let result := b.read ErrorCode buf
      (⟨.ok result.count, result.span⟩, .buffer result.reader)
  | .file d, buf =>
      let k := d.served buf.size
      (⟨.ok (received (Operation.readOp.callback ⟨k, 0, 0⟩)), d.rest.take k ++ buf.1.drop k⟩,
        .file (d.next k))
  | .stream p, buf =>
      let k := p.served buf.size
      (⟨.ok (received (Operation.streamReadOp.callback ⟨p.nread buf.size, 0, 0⟩)),
          p.rest.take k ++ buf.1.drop k⟩,
        -- into an empty span nothing is read
        .stream (if buf.size = 0 then p else p.next k))

/-- What is still to come. -/
def data : Base → List UInt8
  | .buffer b => b.unread
  | .file d => d.rest
  | .stream p => p.rest

def isStream : Base → Bool
  | .stream _ => true
  | _ => false

/-- The next read is told of the end. -/
def atEnd : Base → Bool
  | .stream p => p.atEnd
  | _ => false

/-- The read number `n` from now on finds something if there is anything. -/
def Ready : Base → Nat → Prop
  | .stream p, n => 0 < p.chunks n
  | _, _ => True

/-- The bytes the next read gives if it asks for so many. -/
def next : Base → Nat → Nat
  | .buffer b, asked => min b.unread.length asked
  | .file d, asked => d.served asked
  | .stream p, asked => p.served asked

theorem next_le (b : Base) (asked : Nat) : b.next asked ≤ asked ∧ b.next asked ≤ b.data.length := by
  cases b <;> simp only [next, data, Incoming.served, Peer.served] <;> omega

theorem next_zero (b : Base) : b.next 0 = 0 := Nat.le_zero.mp (b.next_le 0).1

theorem next_pos {b : Base} {asked : Nat} (some_ : 0 < asked) (left : b.data ≠ [])
    (ready : b.Ready 0) : 0 < b.next asked := by
  have held := List.length_pos_iff.mpr left
  cases b <;> simp only [next, data, Ready, Incoming.served, Peer.served] at * <;> omega

theorem next_of_empty {b : Base} {asked : Nat} (empty : b.data = []) : b.next asked = 0 := by
  have bound := (b.next_le asked).2
  rw [empty] at bound
  exact Nat.le_zero.mp bound

theorem data_of_atEnd {b : Base} (ended : b.atEnd = true) : b.data = [] := by
  cases b with
  | buffer b => cases ended
  | file d => cases ended
  | stream p => exact (of_decide_eq_true ended).1

theorem exists_ready (b : Base) : ∃ n, b.Ready n := by
  cases b with
  | buffer b => exact ⟨0, trivial⟩
  | file d => exact ⟨0, trivial⟩
  | stream p =>
      obtain ⟨m, -, some_⟩ := p.arrives 0
      exact ⟨m, some_⟩

/-- A read of a non-empty span. -/
structure Reads (b : Base) (buf : Span) : Prop where
  data : (b.read buf).2.data = b.data.drop (b.next buf.size)
  stream : (b.read buf).2.isStream = b.isStream
  ready : ∀ n, (b.read buf).2.Ready n ↔ b.Ready (n + 1)
  eof : (b.read buf).1.isEof = true ↔ b.atEnd = true
  delivered : (b.read buf).1.delivered = b.data.take (b.next buf.size)
  bound : ∀ k, (b.read buf).1.result = .ok (.ok k) → k ≤ (b.read buf).1.span.length

/-- A read that succeeds with `k` bytes. -/
theorem reads_ok {b : Base} {buf : Span}
    (data : (b.read buf).2.data = b.data.drop (b.next buf.size))
    (stream : (b.read buf).2.isStream = b.isStream)
    (ready : ∀ n, (b.read buf).2.Ready n ↔ b.Ready (n + 1))
    (result : (b.read buf).1.result = .ok (.ok (b.next buf.size)))
    (span : (b.read buf).1.span = b.data.take (b.next buf.size) ++ buf.1.drop (b.next buf.size))
    (goesOn : b.atEnd = false) : Reads b buf := by
  obtain ⟨-, short⟩ := b.next_le buf.size
  have front : (b.data.take (b.next buf.size)).length = b.next buf.size :=
    List.length_take_of_le short
  refine ⟨data, stream, ready, ?eof, ?delivered, ?bound⟩
  case eof =>
    have value : (b.read buf).1.isEof = false := by
      unfold Outcome.isEof
      rw [result]
      simp
    rw [value, goesOn]
  case delivered =>
    unfold Outcome.delivered
    rw [result, span]
    exact List.take_left' front
  case bound =>
    intro k counted
    rw [result] at counted
    cases counted
    rw [span, List.length_append, front]
    exact Nat.le_add_right _ _

theorem buffer_reads (b : Buffer.Readable) (buf : Span) : Reads (.buffer b) buf := by
  obtain ⟨count, span, rest⟩ := b.read_spec ErrorCode buf
  exact reads_ok rest rfl (fun _ => Iff.rfl) (congrArg Except.ok count) span rfl

theorem file_reads (d : Incoming) (buf : Span) : Reads (.file d) buf := by
  refine reads_ok rfl rfl (fun _ => Iff.rfl) ?_ rfl rfl
  have served : ¬ ((d.served buf.size : Nat) : Int) < 0 := by omega
  show Except.ok (received (complete (fun bytes => .count bytes.toNat) (d.served buf.size))) = _
  rw [complete, if_neg served]
  rfl

theorem stream_reads (p : Peer) (buf : Span) (nonempty : 0 < buf.size) :
    Reads (.stream p) buf := by
  have some_ : ¬ buf.size = 0 := by omega
  have after : (read (.stream p) buf).2 = .stream (p.next (p.served buf.size)) :=
    congrArg Base.stream (if_neg some_)
  cases ended : p.atEnd with
  | true =>
      have empty : p.rest = [] := data_of_atEnd (b := .stream p) ended
      have nothing : p.served buf.size = 0 := next_of_empty (b := .stream p) empty
      have closed : p.nread buf.size = uvEOF := by
        rw [Peer.nread, if_neg some_, if_pos ended]
      have result : (read (.stream p) buf).1.result = .ok (.error IoError.kEOF.makeErrorCode) := by
        show Except.ok (received (Operation.streamReadResult (p.nread buf.size))) = _
        rw [closed]
        rfl
      refine ⟨by rw [after]; rfl, by rw [after]; rfl, fun _ => by rw [after]; rfl, ?eof,
        ?delivered, ?bound⟩
      case eof =>
        have signalled : (read (.stream p) buf).1.isEof = true := by
          unfold Outcome.isEof
          rw [result]
          simp
        exact ⟨fun _ => ended, fun _ => signalled⟩
      case delivered =>
        unfold Outcome.delivered
        rw [result]
        show [] = p.rest.take _
        rw [empty, List.take_nil]
      case bound =>
        intro k counted
        rw [result] at counted
        cases counted
  | false =>
      refine reads_ok (by rw [after]; rfl) (by rw [after]; rfl) (fun _ => by rw [after]; rfl) ?_
        rfl ended
      have goesOn : ¬ p.atEnd = true := by simp [ended]
      have served : ¬ ((p.served buf.size : Nat) : Int) < 0 := by omega
      show Except.ok (received (Operation.streamReadResult (p.nread buf.size))) = _
      rw [Peer.nread, if_neg some_, if_neg goesOn, Operation.streamReadResult, if_neg served]
      rfl

theorem reads (b : Base) {buf : Span} (nonempty : 0 < buf.size) : Reads b buf := by
  cases b with
  | buffer b => exact buffer_reads b buf
  | file d => exact file_reads d buf
  | stream p => exact stream_reads p buf nonempty

end Base

/-! ## Budgets -/

/-- As much of `size` as a budget allows. -/
def cut (budget : Option Nat) (size : Nat) : Nat :=
  match budget with
  | none => size
  | some m => min size m

section Cut

variable (budget : Option Nat) (size n : Nat)

/-- A budget on top of another one. -/
theorem cut_cut : cut (some (cut budget n)) size = cut budget (min size n) := by
  cases budget with
  | none => rfl
  | some m => exact (Nat.min_assoc size n m).symm

/-- Both budgets are charged for what they let through. -/
theorem cut_charged :
    cut (budget.map (· - cut budget (min size n))) (n - min size n) =
      cut budget n - cut budget (min size n) := by
  cases budget with
  | none => rfl
  | some m =>
      simp only [cut, Option.map_some]
      omega

theorem cut_eq_zero : cut budget n = 0 ↔ n = 0 ∨ budget = some 0 := by
  cases budget with
  | none => simp [cut]
  | some m =>
      simp only [cut, Option.some.injEq]
      omega

end Cut

/-! ## Readers -/

inductive Source where
  | plain (base : Base)
  /-- A `LimitedReader` over the source. -/
  | limited (r : Source) (n : SizeT)

namespace Source

/-- `AsyncReader` -/
def async : Source → Bool
  | .plain (.buffer _) => false
  | .plain (.file _) => true
  | .plain (.stream _) => true
  | .limited r _ => r.async

def read : Source → Span → Outcome × Source
  | .plain base, buf => ((base.read buf).1, .plain (base.read buf).2)
  | .limited r n, buf =>
      let result := LimitedReader.limit (fun _ passed => r.read passed) r.async ⟨r, n⟩ buf
      (result.1, .limited result.2.r result.2.n)

/-- What is still to come if nothing is lost. -/
def data : Source → List UInt8
  | .plain base => base.data
  | .limited r n => r.data.take n.1

def base : Source → Base
  | .plain base => base
  | .limited r _ => r.base

/-- The smallest budget of the limiters, if there are any. -/
def budget : Source → Option Nat
  | .plain _ => none
  | .limited r n => some (cut r.budget n.1)

/-- What the innermost reader is asked for. -/
def asked (src : Source) (buf : Span) : Nat := cut src.budget buf.size

/-- Consumers read until `kEOF`. -/
def sources : Drain Source Span UInt8 where
  read src buf := (if (src.read buf).1.isEof then none else some (src.read buf).1.delivered,
    (src.read buf).2)
  data := data

/-! ## One Read -/

/-- The budget runs out, or the innermost reader is told of the end. -/
def Ended (src : Source) : Prop :=
  src.budget = some 0 ∨ src.base.atEnd = true

/-- A Read of a non-empty span. -/
structure Reads (src : Source) (buf : Span) : Prop where
  data : (src.read buf).2.base.data = src.base.data.drop (src.base.next (src.asked buf))
  budget : (src.read buf).2.budget = src.budget.map (· - src.asked buf)
  stream : (src.read buf).2.base.isStream = src.base.isStream
  ready : src.budget ≠ some 0 → ∀ n, (src.read buf).2.base.Ready n ↔ src.base.Ready (n + 1)
  eof : (src.read buf).1.isEof = true ↔ src.Ended
  delivered : (src.read buf).1.delivered = src.base.data.take (src.base.next (src.asked buf))
  bound : ∀ k, (src.read buf).1.result = .ok (.ok k) → k ≤ (src.read buf).1.span.length

section Limited

variable {r : Source} {n : SizeT} {buf : Span}

theorem eof_isEof (async : Bool) (buf : Span) : ((Answer.eof async).outcome buf).isEof = true := by
  cases async <;> rfl

/-- A limiter with a spent budget. -/
theorem spent_reads (spent : n.1 = 0) : Reads (.limited r n) buf := by
  have read : (Source.limited r n).read buf = ((Answer.eof r.async).outcome buf, .limited r n) := by
    rw [Source.read, LimitedReader.limit_spent _ _ _ spent]
  have none_ : (Source.limited r n).budget = some 0 :=
    congrArg some ((cut_eq_zero r.budget n.1).mpr (.inl spent))
  have nothing : (Source.limited r n).asked buf = 0 := by
    rw [asked, none_]
    exact Nat.min_zero _
  have failed : ∀ k, ((Answer.eof r.async).outcome buf).result ≠ .ok (.ok k) := by
    intro k counted
    cases mode : r.async <;> rw [mode] at counted <;> cases counted
  refine ⟨?data, ?budget, ?stream, fun unspent => absurd none_ unspent, ?eof, ?delivered, ?bound⟩
  case data => rw [read, nothing, Base.next_zero, List.drop_zero]
  case budget =>
    rw [read, none_, nothing]
    rfl
  case stream => rw [read]
  case eof =>
    rw [read]
    exact ⟨fun _ => .inl none_, fun _ => eof_isEof r.async buf⟩
  case delivered =>
    rw [read, nothing, Base.next_zero, List.take_zero]
    cases r.async <;> rfl
  case bound =>
    intro k counted
    rw [read] at counted
    exact absurd counted (failed k)

/-- A limiter that passes the Read on. -/
theorem within_reads (left : n.1 ≠ 0)
    (inner : Reads r ((⟨r, n⟩ : LimitedReader Source).clamp buf)) :
    Reads (.limited r n) buf := by
  let passed := (⟨r, n⟩ : LimitedReader Source).clamp buf
  have size : passed.size = min buf.size n.1 := LimitedReader.clamp_size buf
  have charged : (n.sub passed.sizeT).1 = n.1 - min buf.size n.1 :=
    LimitedReader.budget_after (l := (⟨r, n⟩ : LimitedReader Source)) buf
  have read : (Source.limited r n).read buf =
      (⟨(r.read passed).1.result, (r.read passed).1.span ++ buf.1.drop passed.size⟩,
        .limited (r.read passed).2 (n.sub passed.sizeT)) := by
    rw [Source.read, LimitedReader.limit_within _ _ _ left]
  have same : (Source.limited r n).asked buf = r.asked passed := by
    rw [asked, asked, size]
    exact cut_cut r.budget buf.size n.1
  have spent_iff : (Source.limited r n).budget = some 0 ↔ r.budget = some 0 := by
    show some (cut r.budget n.1) = some 0 ↔ _
    rw [Option.some.injEq, cut_eq_zero, or_iff_right left]
  refine ⟨?data, ?left, ?stream, ?ready, ?eof, ?delivered, ?bound⟩
  case data =>
    rw [read, same]
    exact inner.data
  case left =>
    rw [read, same]
    show some (cut (r.read passed).2.budget (n.sub passed.sizeT).1) =
      some (cut r.budget n.1 - r.asked passed)
    rw [inner.budget, charged, asked, size, cut_charged]
  case stream =>
    rw [read]
    exact inner.stream
  case ready =>
    intro unspent
    rw [read]
    exact inner.ready (mt spent_iff.mpr unspent)
  case eof =>
    have passedOn : ((Source.limited r n).read buf).1.isEof = (r.read passed).1.isEof := by
      rw [read]
      exact Outcome.isEof_congr rfl
    rw [passedOn, inner.eof]
    unfold Ended
    rw [spent_iff]
    rfl
  case delivered =>
    rw [read, same]
    exact (Outcome.delivered_append inner.bound).trans inner.delivered
  case bound =>
    intro k counted
    rw [read] at counted
    rw [read, List.length_append]
    exact Nat.le_add_right_of_le (inner.bound k counted)

end Limited

theorem reads (src : Source) {buf : Span} (nonempty : 0 < buf.size) : Reads src buf := by
  induction src generalizing buf with
  | plain b =>
      obtain ⟨data, stream, ready, eof, delivered, bound⟩ := b.reads nonempty
      refine ⟨data, rfl, stream, fun _ => ready, eof.trans ?_, delivered, bound⟩
      exact (or_iff_right nofun).symm
  | limited r n ih =>
      by_cases spent : n.1 = 0
      · exact spent_reads spent
      · refine within_reads spent (ih ?_)
        rw [LimitedReader.clamp_size]
        exact Nat.lt_min.mpr ⟨nonempty, Nat.pos_of_ne_zero spent⟩

/-! ## What a source holds -/

theorem data_eq (src : Source) :
    src.data = src.base.data.take (cut src.budget src.base.data.length) := by
  induction src with
  | plain b => exact (List.take_length (l := b.data)).symm
  | limited r n ih =>
      have allowed : min n.1 (cut r.budget r.base.data.length) =
          min r.base.data.length (cut r.budget n.1) := by
        cases r.budget with
        | none => exact Nat.min_comm _ _
        | some m =>
            simp only [cut]
            omega
      rw [data, ih, List.take_take, allowed]
      rfl

theorem data_length (src : Source) :
    src.data.length = cut src.budget src.base.data.length := by
  rw [data_eq, List.length_take]
  cases src.budget with
  | none => exact Nat.min_self _
  | some m => simp [cut]

theorem data_eq_nil {src : Source} :
    src.data = [] ↔ src.base.data = [] ∨ src.budget = some 0 := by
  rw [← List.length_eq_zero_iff, data_length, cut_eq_zero, List.length_eq_zero_iff]

theorem Ended.data_eq_nil {src : Source} (ended : src.Ended) : src.data = [] := by
  rcases ended with spent | ended
  · exact Source.data_eq_nil.mpr (.inr spent)
  · exact Source.data_eq_nil.mpr (.inl (Base.data_of_atEnd ended))

section Read

variable {src : Source} {buf : Span}

theorem next_of_ended (ended : src.Ended) : src.base.next (src.asked buf) = 0 := by
  rcases ended with spent | ended
  · have nothing : src.asked buf = 0 := (cut_eq_zero _ _).mpr (.inr spent)
    rw [nothing]
    exact src.base.next_zero
  · exact Base.next_of_empty (Base.data_of_atEnd ended)

theorem sources_delivered (nonempty : 0 < buf.size) :
    sources.delivered src buf = src.base.data.take (src.base.next (src.asked buf)) := by
  have reads := src.reads nonempty
  show (if (src.read buf).1.isEof then none else some (src.read buf).1.delivered).getD [] = _
  by_cases eof : (src.read buf).1.isEof = true
  · rw [if_pos eof, next_of_ended (reads.eof.mp eof)]
    rfl
  · rw [if_neg eof]
    exact reads.delivered

theorem delivered_length (nonempty : 0 < buf.size) :
    (sources.delivered src buf).length = src.base.next (src.asked buf) := by
  rw [sources_delivered nonempty, List.length_take]
  exact Nat.min_eq_left (src.base.next_le _).2

/-- What is left is what the budget left allows of what the base has left. -/
theorem left_eq (nonempty : 0 < buf.size) :
    (src.read buf).2.data =
      (src.base.data.drop (src.base.next (src.asked buf))).take
        (cut (src.budget.map (· - src.asked buf))
          (src.base.data.length - src.base.next (src.asked buf))) := by
  have reads := src.reads nonempty
  rw [data_eq, reads.data, reads.budget, List.length_drop]

theorem asked_le (buf : Span) : ∀ m, src.budget = some m → src.asked buf ≤ m := by
  intro m budget
  rw [asked, budget]
  exact Nat.min_le_right _ _

/-- A Read takes at least its count off what the budget allows. -/
theorem charged_le (buf : Span) :
    src.base.next (src.asked buf) +
        cut (src.budget.map (· - src.asked buf))
          (src.base.data.length - src.base.next (src.asked buf)) ≤
      cut src.budget src.base.data.length := by
  obtain ⟨within, short⟩ := src.base.next_le (src.asked buf)
  have charged := @asked_le src buf
  generalize src.base.next (src.asked buf) = k at *
  cases budget : src.budget with
  | none =>
      simp only [cut, Option.map_none]
      omega
  | some m =>
      have allowed := charged m budget
      simp only [cut, Option.map_some]
      omega

end Read

/-- A source that holds something gives some of it, once its base is ready. -/
theorem delivered_ne_nil {src : Source} {buf : Span} (nonempty : 0 < buf.size)
    (left : src.data ≠ []) (ready : src.base.Ready 0) : sources.delivered src buf ≠ [] := by
  obtain ⟨held, unspent⟩ := not_or.mp (mt data_eq_nil.mpr left)
  have allowed : 0 < src.asked buf := by
    refine Nat.pos_of_ne_zero fun nothing => ?_
    rcases (cut_eq_zero _ _).mp nothing with empty | spent
    · exact absurd empty (Nat.ne_of_gt nonempty)
    · exact unspent spent
  apply List.ne_nil_of_length_pos
  rw [delivered_length nonempty]
  exact Base.next_pos allowed held ready

/-- The reads before that one give nothing, or there is nothing. -/
theorem gives_something {src : Source} {bufs : Nat → Span} (nonempty : ∀ n, 0 < (bufs n).size)
    {n : Nat} (ready : src.base.Ready n) :
    ∃ k, (sources.after src bufs k).data = [] ∨
      sources.delivered (sources.after src bufs k) (bufs k) ≠ [] := by
  induction n generalizing src bufs with
  | zero =>
      by_cases empty : src.data = []
      · exact ⟨0, .inl empty⟩
      · exact ⟨0, .inr (delivered_ne_nil (nonempty 0) empty ready)⟩
  | succ n ih =>
      by_cases empty : src.data = []
      · exact ⟨0, .inl empty⟩
      · have unspent := (not_or.mp (mt data_eq_nil.mpr empty)).2
        have nearer := ((src.reads (nonempty 0)).ready unspent n).mpr ready
        obtain ⟨k, gives⟩ := ih (fun m => nonempty (m + 1)) nearer
        exact ⟨k + 1, gives⟩

theorem sources_honest : sources.Honest fun buf => 0 < buf.size where
  ended src buf nonempty none_ := by
    have eof : (src.read buf).1.isEof = true := by
      by_contra goesOn
      cases (if_neg goesOn).symm.trans none_
    exact ((src.reads nonempty).eof.mp eof).data_eq_nil
  progress src bufs nonempty := by
    obtain ⟨n, ready⟩ := src.base.exists_ready
    exact gives_something nonempty ready
  pieces src buf nonempty := by
    have bound := @charged_le src buf
    rw [sources_delivered nonempty]
    show ∃ lost, src.data = _ ++ ((src.read buf).2.data ++ lost)
    rw [data_eq src, left_eq nonempty]
    generalize src.base.next (src.asked buf) = k at *
    generalize cut (src.budget.map _) _ = left at *
    generalize cut src.budget _ = whole at *
    refine ⟨((src.base.data.drop k).take (whole - k)).drop left, ?_⟩
    have front : (src.base.data.drop k).take left =
        ((src.base.data.drop k).take (whole - k)).take left := by
      rw [List.take_take, Nat.min_eq_left (by omega)]
    have sum : whole = k + (whole - k) := by omega
    rw [front, List.take_append_drop, ← List.take_add, ← sum]

/-! ## The condition -/

/-- A Read runs into the end of a buffer or a file, or comes before the FIN of a stream
whose bytes have all been read. -/
def RunsDry (src : Source) : Prop :=
  src.base.data = [] ∧ src.base.atEnd = false ∧ src.budget ≠ some 0

/-- A Read gets less than the limiters are charged for, and what they still allow is
less than what is left. -/
def Loses (src : Source) (buf : Span) : Prop :=
  ∃ m, src.budget = some m ∧ src.base.next (src.asked buf) < src.asked buf ∧
    m - src.asked buf < src.base.data.length - src.base.next (src.asked buf)

section Condition

variable {src : Source} {buf : Span}

theorem signals_iff (nonempty : 0 < buf.size) :
    (src.data = [] → (src.read buf).1.isEof = true) ↔ ¬ src.RunsDry := by
  rw [(src.reads nonempty).eof]
  constructor
  · rintro signals ⟨empty, untold, unspent⟩
    rcases signals (data_eq_nil.mpr (.inl empty)) with spent | ended
    · exact unspent spent
    · cases untold.symm.trans ended
  · intro wet nothing
    by_cases spent : src.budget = some 0
    · exact .inl spent
    · have empty := (data_eq_nil.mp nothing).resolve_right spent
      refine .inr ?_
      by_contra untold
      exact wet ⟨empty, Bool.eq_false_iff.mpr untold, spent⟩

theorem conserves_iff (nonempty : 0 < buf.size) :
    sources.Conserves src buf ↔ ¬ src.Loses buf := by
  obtain ⟨within, short⟩ := src.base.next_le (src.asked buf)
  have lengths : sources.Conserves src buf ↔
      cut src.budget src.base.data.length ≤ src.base.next (src.asked buf) +
        cut (src.budget.map (· - src.asked buf))
          (src.base.data.length - src.base.next (src.asked buf)) := by
    have after : (sources.data (sources.read src buf).2).length =
        cut (src.budget.map (· - src.asked buf))
          (src.base.data.length - src.base.next (src.asked buf)) := by
      have reads := src.reads nonempty
      show (src.read buf).2.data.length = _
      rw [data_length, reads.data, reads.budget, List.length_drop]
    rw [Drain.Conserves, delivered_length nonempty, after]
    show src.data.length ≤ _ ↔ _
    rw [data_length]
  rw [lengths]
  unfold Loses
  cases budget : src.budget with
  | none =>
      simp only [cut, Option.map_none]
      constructor
      · rintro - ⟨m, limited, -⟩
        cases limited
      · intro _
        omega
  | some m =>
      have charged := asked_le buf m budget
      simp only [cut, Option.map_some, Option.some.injEq]
      constructor
      · rintro conserves ⟨_, rfl, fewer, more⟩
        omega
      · intro fits
        have fits : ¬ (src.base.next (src.asked buf) < src.asked buf ∧
            m - src.asked buf < src.base.data.length - src.base.next (src.asked buf)) := by
          intro both
          exact fits ⟨m, rfl, both.1, both.2⟩
        omega

end Condition

/-! ## Reading until the end -/

/-- Every Read of the sequence that finds nothing left fails with `kEOF`, and the loop
that reads until then stops with everything the source held. -/
structure Complete (src : Source) (bufs : Nat → Span) : Prop where
  signalled : ∀ k, (sources.after src bufs k).data = [] →
    ((sources.after src bufs k).read (bufs k)).1.isEof = true
  stops : ∃ fuel, sources.loop fuel src bufs = some src.data

section Loop

variable {src : Source} {bufs : Nat → Span}

theorem sources_signals {buf : Span} :
    sources.Signals src buf ↔ (src.data = [] → (src.read buf).1.isEof = true) := by
  show (src.data = [] → (if _ then none else some _) = none) ↔ _
  simp only [ite_eq_left_iff, Bool.not_eq_true, reduceCtorEq, imp_false, Bool.not_eq_false]

theorem complete_iff_drained (nonempty : ∀ n, 0 < (bufs n).size) :
    Complete src bufs ↔ ∀ k, sources.Signals (sources.after src bufs k) (bufs k) ∧
      sources.Conserves (sources.after src bufs k) (bufs k) := by
  rw [← sources_honest.drains_iff nonempty]
  constructor
  · rintro ⟨signalled, stops⟩
    exact ⟨fun k => sources_signals.mpr (signalled k), stops⟩
  · rintro ⟨signals, stops⟩
    exact ⟨fun k => sources_signals.mp (signals k), stops⟩

/-- **The end of data is signalled, and the loop is complete,** for every source and
every sequence of non-empty spans, if and only if no Read of the sequence finds nothing
left without being told of the end, and none loses bytes in a limiter. -/
theorem complete_iff (src : Source) (bufs : Nat → Span) (nonempty : ∀ n, 0 < (bufs n).size) :
    Complete src bufs ↔ ∀ k, ¬ (sources.after src bufs k).RunsDry ∧
      ¬ (sources.after src bufs k).Loses (bufs k) := by
  rw [complete_iff_drained nonempty]
  refine forall_congr' fun k => and_congr ?_ (conserves_iff (nonempty k))
  exact sources_signals.trans (signals_iff (nonempty k))

theorem twoBytes_fit : [(0 : UInt8), 0].length ≤ maxSize := by decide

def twoBytes : Span := ⟨[0, 0], twoBytes_fit⟩

theorem four_fits : 4 < 2 ^ 64 := by decide

/-- A limiter that ends before the file behind it. -/
def limitedFile : Source :=
  .limited (.plain (.file ⟨[1, 2, 3, 4, 5], fun _ => 2⟩)) ⟨4, four_fits⟩

/-- A source whose budget is spent meets the condition. -/
theorem not_loses_of_spent {buf : Span} (spent : src.budget = some 0) :
    ¬ src.RunsDry ∧ ¬ src.Loses buf := by
  refine ⟨fun dry => dry.2.2 spent, ?_⟩
  rintro ⟨m, budget, short, -⟩
  have nothing : src.asked buf = 0 := (cut_eq_zero _ _).mpr (.inr spent)
  rw [nothing] at short
  exact Nat.not_lt_zero _ short

/-- Its two Reads fill their spans, and the limiter refuses all others. -/
theorem limitedFile_meets (k : Nat) :
    ¬ (sources.after limitedFile (fun _ => twoBytes) k).RunsDry ∧
      ¬ (sources.after limitedFile (fun _ => twoBytes) k).Loses twoBytes := by
  match k with
  | 0 =>
      refine ⟨fun dry => absurd dry.1 (by decide), ?_⟩
      rintro ⟨m, -, short, -⟩
      exact absurd short (by decide)
  | 1 =>
      refine ⟨fun dry => absurd dry.1 (by decide), ?_⟩
      rintro ⟨m, -, short, -⟩
      exact absurd short (by decide)
  | k + 2 =>
      apply not_loses_of_spent
      have spent : ∀ n (src : Source), src.budget = some 0 →
          (sources.after src (fun _ => twoBytes) n).budget = some 0 := by
        intro n
        induction n with
        | zero => exact fun src spent => spent
        | succ n ih =>
            intro src spent
            refine ih _ ?_
            show (src.read twoBytes).2.budget = some 0
            rw [(src.reads (by decide)).budget, spent]
            exact congrArg some (Nat.zero_sub _)
      exact spent k _ rfl

/-- So the loop over it is complete. -/
theorem complete_iff_limitedFile : Complete limitedFile fun _ => twoBytes :=
  (complete_iff limitedFile _ fun _ => by decide).mpr limitedFile_meets

/-- Without a limiter nothing is lost, and all depends on who is told of the end. -/
theorem plain_complete_iff (b : Base) (nonempty : ∀ n, 0 < (bufs n).size) :
    Complete (.plain b) bufs ↔ ∀ k, (sources.after (.plain b) bufs k).base.data = [] →
      (sources.after (.plain b) bufs k).base.atEnd = true := by
  have plain : ∀ k (b : Base) (bufs : Nat → Span),
      (sources.after (.plain b) bufs k).budget = none := by
    intro k
    induction k with
    | zero => exact fun b bufs => rfl
    | succ k ih => exact fun b bufs => ih (b.read (bufs 0)).2 _
  rw [complete_iff_drained nonempty]
  refine forall_congr' fun k => ?_
  rw [sources_signals, signals_iff (nonempty k), conserves_iff (nonempty k)]
  constructor
  · rintro ⟨wet, -⟩ empty
    by_contra untold
    exact wet ⟨empty, Bool.eq_false_iff.mpr untold, by rw [plain]; nofun⟩
  · intro told
    constructor
    · rintro ⟨empty, untold, -⟩
      cases untold.symm.trans (told empty)
    · rintro ⟨m, limited, -⟩
      cases (plain k b bufs).symm.trans limited

/-- Reads of a buffer or a file get to its end. -/
theorem plain_after (b : Base) (nonempty : ∀ n, 0 < (bufs n).size) (notStream : b.isStream = false)
    (k : Nat) : ∃ b', sources.after (.plain b) bufs k = .plain b' ∧ b'.isStream = false ∧
      (b'.data = [] ∨ b'.data.length + k ≤ b.data.length) := by
  induction k generalizing b bufs with
  | zero => exact ⟨b, rfl, notStream, .inr (Nat.le_refl _)⟩
  | succ k ih =>
      have first := b.reads (nonempty 0)
      obtain ⟨b', reached, kind, left⟩ :=
        ih (b.read (bufs 0)).2 (fun n => nonempty (n + 1)) (first.stream.trans notStream)
      refine ⟨b', reached, kind, ?_⟩
      rcases left with empty | shorter
      · exact .inl empty
      · rw [first.data, List.length_drop] at shorter
        by_cases held : b.data = []
        · rw [held, List.length_nil, Nat.zero_sub] at shorter
          exact .inl (List.length_eq_zero_iff.mp (by omega))
        · have ready : b.Ready 0 := by
            cases b with
            | buffer b => trivial
            | file d => trivial
            | stream p => cases notStream
          have progress := Base.next_pos (nonempty 0) held ready
          have short := (b.next_le (bufs 0).size).2
          exact .inr (by omega)

/-- A buffer or a file without a limiter never signals its end. -/
theorem plain_never_complete {b : Base} (nonempty : ∀ n, 0 < (bufs n).size)
    (notStream : b.isStream = false) : ¬ Complete (.plain b) bufs := by
  intro complete
  obtain ⟨b', reached, kind, left⟩ := plain_after b nonempty notStream b.data.length
  have empty : b'.data = [] := by
    rcases left with empty | shorter
    · exact empty
    · exact List.length_eq_zero_iff.mp (by omega)
  have told := (plain_complete_iff b nonempty).mp complete b.data.length
  rw [reached] at told
  have ended := told empty
  cases b' with
  | buffer b => cases ended
  | file d => cases ended
  | stream p => cases kind

/-- A buffer of two bytes succeeds with 0 bytes once it is empty, however often it is
read. -/
theorem buffer_never_ends :
    ¬ Complete (.plain (.buffer ⟨⟨Buffer.ofView .exact twoBytes, none⟩, Nat.zero_le _⟩))
      (fun _ => twoBytes) := by
  intro complete
  have signalled := complete.signalled 1 (by decide)
  exact absurd signalled (by decide)

/-- Two bytes of a peer, both there for the first Read; the second one is started inside
its completion and comes before the FIN. -/
def beforeFin : Peer where
  rest := [1, 2]
  chunks := fun n => if n = 1 then 0 else 2
  arrives := fun n => ⟨n + 2, Nat.le_add_right n 2, by simp⟩
  ended := false

/-- It succeeds with 0 bytes. -/
theorem beforeFin_incomplete : ¬ Complete (.plain (.stream beforeFin)) fun _ => twoBytes := by
  intro complete
  have signalled := complete.signalled 1 (by decide)
  exact absurd signalled (by decide)

/-- A peer whose bytes come one at a time. -/
def oneByOne : Peer where
  rest := [1, 2, 3, 4, 5]
  chunks := fun _ => 1
  arrives := fun n => ⟨n, Nat.le_refl n, Nat.one_pos⟩
  ended := false

/-- Behind a limiter the third and the fourth are charged for and never delivered. -/
example : sources.loop 5 (.limited (.plain (.stream oneByOne)) ⟨4, four_fits⟩)
    (fun _ => twoBytes) = some [1, 2] := by decide

end Loop

end Source

end PatBase.Io
