/-
# PatBase.Runtime.StreamRead -- the bytes that consecutive stream Reads get

stream_read.h with the bytes: a Read switches the reading of its handle on, the alloc
callback offers libuv the span of the Read that `data` points to, and the read callback
switches the reading off and completes that Read.  Nothing but Reads uses `data` here.
A Read may be started inside the completion of the one before (`calling`), while the
read loop of libuv still runs, or later.

Libuv and the kernel are the environment.  While the reading is on they may call the
alloc callback and then read: any number of the bytes that wait, no more than was
offered, none at all, the end of the stream once the peer has closed its side and
everything was read, or an error.

`Tidy` is the invariant and `reads_deliver_in_order` what it says to a caller.  Nothing
in it asks that a Read has completed when the next is started: a Read whose slot is
taken while it waits gets no completion, and its bytes go to the next one.
-/
import PatBase.Lib.Machine
import PatBase.Lib.StdString
import PatBase.Runtime.Operation
import Mathlib.Logic.Function.Basic

namespace PatBase.Runtime.StreamRead

open PatBase.Lib PatBase.Lib.Machine

set_option autoImplicit false

/-! ## State -/

/-- A Read operation and the memory of its span. -/
structure Read where
  /-- The span as the caller gave it. -/
  given : List UInt8
  span : List UInt8
  completions : List Completion

namespace Read

/-- The value the Read completed with. -/
def count (r : Read) : Nat :=
  match r.completions.head? with
  | some (.setValue (.count k)) => k
  | _ => 0

/-- What the Read delivered. -/
def got (r : Read) : List UInt8 := r.span.take r.count

end Read

/-- Where libuv is in its read loop. -/
inductive Point where
  | polling
  /-- The alloc callback has answered with the first `length` bytes of this Read's span. -/
  | offered (op length : Nat)
  /-- In the read callback, which completes the Read. -/
  | calling
  deriving DecidableEq, Repr

structure State where
  /-- Everything the peer has sent so far, and what of it libuv has yet to read. -/
  arrived : List UInt8
  incoming : List UInt8
  /-- The peer has closed its side. -/
  ended : Bool
  data : Option Nat
  reading : Bool
  point : Point
  started : Nat
  reads : Nat → Read

inductive Act where
  | arrive (bytes : List UInt8)
  | close
  /-- A Read is started with this span; `uv_read_start` returns `rc`. -/
  | startRead (span : Span) (rc : Int)
  | allocCallback (suggestedSize : Nat)
  /-- Libuv reads, with this result, and calls the read callback. -/
  | readCallback (nread : Int)
  | callbackReturns

def init : State where
  arrived := []
  incoming := []
  ended := false
  data := none
  reading := false
  point := .polling
  started := 0
  reads := fun _ => ⟨[], [], []⟩

/-- The bytes that all Reads so far have delivered, in the order they were started. -/
def State.delivered (s : State) : List UInt8 :=
  (List.range s.started).flatMap fun op => (s.reads op).got

/-! ## Steps -/

/-- `_stream_read::_op::start` -/
def startRead (s : State) (span : Span) (rc : Int) : State :=
  { s with
    data := some s.started
    reading := if 0 ≤ rc then true else s.reading
    started := s.started + 1
    reads := Function.update s.reads s.started ⟨span.1, span.1, []⟩ }

/-- The read of libuv: what it got stands at the front of the memory it was offered. -/
def fill (s : State) (op : Nat) (n : Nat) : State :=
  { s with
    incoming := s.incoming.drop n
    reads := Function.update s.reads op
      { s.reads op with span := s.incoming.take n ++ (s.reads op).span.drop n } }

/-- The read callback: `uv_read_stop`, and the Read that `data` points to completes. -/
def readCallback (s : State) (nread : Int) : State :=
  let s := { s with reading := false, point := .calling }
  match s.data with
  | some op =>
      { s with
        reads := Function.update s.reads op
          { s.reads op with
            completions := (s.reads op).completions ++ [Operation.streamReadResult nread] } }
  | none => s

def step (s : State) : Act → Option State
  | .arrive bytes =>
      if s.ended = false then
        some { s with arrived := s.arrived ++ bytes, incoming := s.incoming ++ bytes }
      else none
  | .close => some { s with ended := true }
  | .startRead span rc =>
      if (0 ≤ rc → s.reading = false) ∧ (s.point = .polling ∨ s.point = .calling) then
        some (startRead s span rc)
      else none
  | .allocCallback suggestedSize =>
      match s.data with
      | some op =>
          if s.reading = true ∧ s.point = .polling then
            some { s with point := .offered op (min suggestedSize (s.reads op).span.length) }
          else none
      | none => none
  | .readCallback nread =>
      match s.point with
      | .offered op length =>
          if nread.toNat ≤ length ∧ nread.toNat ≤ s.incoming.length ∧
              (nread = uvEOF → s.ended = true ∧ s.incoming = []) then
            some (readCallback (fill s op nread.toNat) nread)
          else none
      | _ => none
  | .callbackReturns => if s.point = .calling then some { s with point := .polling } else none

/-- What each action does, and what holds where it is enabled. -/
inductive Step (s : State) : Act → State → Prop where
  | arrive (bytes : List UInt8) (opened : s.ended = false) :
      Step s (.arrive bytes)
        { s with arrived := s.arrived ++ bytes, incoming := s.incoming ++ bytes }
  | close : Step s .close { s with ended := true }
  | startRead (span : Span) (rc : Int) (accepts : 0 ≤ rc → s.reading = false)
      (point : s.point = .polling ∨ s.point = .calling) :
      Step s (.startRead span rc) (startRead s span rc)
  | allocCallback (suggestedSize op : Nat) (slot : s.data = some op) (reading : s.reading = true)
      (polling : s.point = .polling) :
      Step s (.allocCallback suggestedSize)
        { s with point := .offered op (min suggestedSize (s.reads op).span.length) }
  | readCallback (nread : Int) (op length : Nat) (offered : s.point = .offered op length)
      (fits : nread.toNat ≤ length) (waiting : nread.toNat ≤ s.incoming.length)
      (eof : nread = uvEOF → s.ended = true ∧ s.incoming = []) :
      Step s (.readCallback nread) (readCallback (fill s op nread.toNat) nread)
  | callbackReturns (calling : s.point = .calling) :
      Step s .callbackReturns { s with point := .polling }

theorem Step.of_step {s s' : State} {a : Act} (taken : step s a = some s') : Step s a s' := by
  cases a with
  | arrive bytes =>
      simp only [step, Option.ite_none_right_eq_some, Option.some.injEq] at taken
      obtain ⟨opened, rfl⟩ := taken
      exact .arrive bytes opened
  | close =>
      cases taken
      exact .close
  | startRead span rc =>
      simp only [step, Option.ite_none_right_eq_some, Option.some.injEq] at taken
      obtain ⟨⟨accepts, point⟩, rfl⟩ := taken
      exact .startRead span rc accepts point
  | allocCallback suggestedSize =>
      simp only [step] at taken
      split at taken
      · rename_i op slot
        simp only [Option.ite_none_right_eq_some, Option.some.injEq] at taken
        obtain ⟨⟨reading, polling⟩, rfl⟩ := taken
        exact .allocCallback suggestedSize op slot reading polling
      · cases taken
  | readCallback nread =>
      simp only [step] at taken
      split at taken
      · rename_i op length offered
        simp only [Option.ite_none_right_eq_some, Option.some.injEq] at taken
        obtain ⟨⟨fits, waiting, eof⟩, rfl⟩ := taken
        exact .readCallback nread op length offered fits waiting eof
      · cases taken
  | callbackReturns =>
      simp only [step, Option.ite_none_right_eq_some, Option.some.injEq] at taken
      obtain ⟨calling, rfl⟩ := taken
      exact .callbackReturns calling

/-! ## The invariant -/

/-- A Read has at most one completion, and its memory is as it was given beyond what it
delivered. -/
structure Sound (r : Read) : Prop where
  once : r.completions.length ≤ 1
  count_le : r.count ≤ r.given.length
  length : r.span.length = r.given.length
  beyond : r.span.drop r.count = r.given.drop r.count

/-- Reads follow each other, and what they delivered and what is still incoming is what
arrived. -/
structure Tidy (s : State) : Prop where
  slot : ∀ op, s.data = some op → op + 1 = s.started
  pending : ∀ op, s.data = some op → s.reading = true → (s.reads op).completions = []
  offered : ∀ op length, s.point = .offered op length →
    s.data = some op ∧ s.reading = true ∧ length ≤ (s.reads op).span.length
  sound : ∀ op, Sound (s.reads op)
  conserved : s.delivered ++ s.incoming = s.arrived
  eof : ∀ op, .setError (.exception IoError.kEOF.makeErrorCode) ∈ (s.reads op).completions →
    s.ended = true ∧ s.incoming = []

/-! ## Step lemmas -/

/-- A Read without a completion has delivered nothing and has its memory as given. -/
theorem Sound.of_pending {r : Read} (sound : Sound r) (pending : r.completions = []) :
    r.got = [] ∧ r.span = r.given := by
  have none_ : r.count = 0 := by simp [Read.count, pending]
  have beyond := sound.beyond
  rw [none_, List.drop_zero, List.drop_zero] at beyond
  exact ⟨by simp [Read.got, none_], beyond⟩

/-- A pending Read as a read callback with `nread` leaves it. -/
def Read.answer (r : Read) (incoming : List UInt8) (nread : Int) : Read where
  given := r.given
  span := incoming.take nread.toNat ++ r.span.drop nread.toNat
  completions := [Operation.streamReadResult nread]

/-- The value of a completion is what libuv read; a failure delivers nothing. -/
theorem Read.answer_count (r : Read) (incoming : List UInt8) (nread : Int) :
    (r.answer incoming nread).count = nread.toNat := by
  unfold Read.count Read.answer Operation.streamReadResult
  by_cases failed : nread < 0
  · have nothing : nread.toNat = 0 := by omega
    rw [nothing, if_pos failed]
    by_cases eof : nread = uvEOF <;> simp [eof, uvError]
  · simp [failed]

theorem Read.answer_got {r : Read} {incoming : List UInt8} {nread : Int}
    (waiting : nread.toNat ≤ incoming.length) :
    (r.answer incoming nread).got = incoming.take nread.toNat := by
  rw [Read.got, Read.answer_count]
  exact List.take_left' (by simp only [List.length_take]; omega)

theorem Sound.answer {r : Read} {incoming : List UInt8} {nread : Int} (sound : Sound r)
    (pending : r.completions = []) (fits : nread.toNat ≤ r.span.length)
    (waiting : nread.toNat ≤ incoming.length) : Sound (r.answer incoming nread) := by
  obtain ⟨-, untouched⟩ := sound.of_pending pending
  have length := sound.length
  have short : (incoming.take nread.toNat).length = nread.toNat := by
    simp only [List.length_take]
    omega
  refine ⟨Nat.le_refl _, ?count_le, ?length, ?beyond⟩
  case count_le =>
    rw [Read.answer_count]
    exact Nat.le_trans fits (Nat.le_of_eq length)
  case length =>
    simp only [Read.answer, List.length_append, List.length_drop]
    omega
  case beyond =>
    rw [Read.answer_count]
    simp only [Read.answer]
    rw [List.drop_append_of_le_length (by omega), List.drop_of_length_le (by omega),
      List.nil_append, untouched]

/-- Only the end of the stream is reported as one. -/
theorem eof_of_streamReadResult {nread : Int}
    (reported : .setError (.exception IoError.kEOF.makeErrorCode) =
      Operation.streamReadResult nread) : nread = uvEOF := by
  unfold Operation.streamReadResult uvError at reported
  split at reported
  · split at reported
    · assumption
    · simp [IoError.makeErrorCode] at reported
  · cases reported

section StepLemmas

variable {s s' : State} {a : Act} {span : Span} {rc : Int}

/-- What is delivered does not depend on Reads that are not started. -/
theorem delivered_congr {r : Nat → Read} {n : Nat}
    (same : ∀ op < n, r op = s.reads op) :
    (List.range n).flatMap (fun op => (r op).got) =
      (List.range n).flatMap fun op => (s.reads op).got := by
  apply List.flatMap_congr
  intro op member
  rw [same op (List.mem_range.mp member)]

theorem startRead_delivered (span : Span) (rc : Int) :
    (startRead s span rc).delivered = s.delivered := by
  have earlier := delivered_congr (s := s) (n := s.started)
    (r := Function.update s.reads s.started ⟨span.1, span.1, []⟩)
    (fun op less => Function.update_of_ne (Nat.ne_of_lt less) ..)
  simp only [State.delivered, startRead, List.range_succ, List.flatMap_append, earlier]
  simp [Read.got, Read.count]

theorem startRead_tidy (tidy : Tidy s) (point : s.point = .polling ∨ s.point = .calling) :
    Tidy (startRead s span rc) := by
  have fresh : (startRead s span rc).reads s.started = ⟨span.1, span.1, []⟩ :=
    Function.update_self ..
  have others : ∀ op, op ≠ s.started → (startRead s span rc).reads op = s.reads op :=
    fun op other => Function.update_of_ne other ..
  refine ⟨?slot, ?pending, ?offered, ?sound, ?conserved, ?eof⟩
  case slot =>
    intro op slot
    obtain rfl := Option.some.inj slot
    rfl
  case pending =>
    intro op slot _
    obtain rfl := Option.some.inj slot
    rw [fresh]
  case offered =>
    intro op length offered
    have offered' : s.point = .offered op length := offered
    obtain polling | calling := point
    · cases polling.symm.trans offered'
    · cases calling.symm.trans offered'
  case sound =>
    intro op
    by_cases new : op = s.started
    · rw [new, fresh]
      exact ⟨Nat.zero_le _, Nat.zero_le _, rfl, rfl⟩
    · rw [others op new]
      exact tidy.sound op
  case conserved =>
    rw [startRead_delivered]
    exact tidy.conserved
  case eof =>
    intro op reported
    by_cases new : op = s.started
    · rw [new, fresh] at reported
      cases reported
    · rw [others op new] at reported
      exact tidy.eof op reported

/-- The Read that a read callback completes, and its state. -/
theorem readCallback_answer {op : Nat} {nread : Int} (slot : s.data = some op)
    (pending : (s.reads op).completions = []) :
    readCallback (fill s op nread.toNat) nread = { s with
      incoming := s.incoming.drop nread.toNat
      reading := false
      point := .calling
      reads := Function.update s.reads op ((s.reads op).answer s.incoming nread) } := by
  simp [readCallback, fill, slot, pending, Read.answer]

theorem readCallback_tidy {op length : Nat} {nread : Int} (tidy : Tidy s)
    (offered : s.point = .offered op length) (fits : nread.toNat ≤ length)
    (waiting : nread.toNat ≤ s.incoming.length)
    (eof : nread = uvEOF → s.ended = true ∧ s.incoming = []) :
    Tidy (readCallback (fill s op nread.toNat) nread) := by
  obtain ⟨slot, reading, within⟩ := tidy.offered op length offered
  have pending := tidy.pending op slot reading
  have last := tidy.slot op slot
  rw [readCallback_answer slot pending]
  refine ⟨tidy.slot, ?pending, ?offered, ?sound, ?conserved, ?eof⟩
  case pending =>
    intro _ _ on
    cases on
  case offered =>
    intro _ _ offered
    cases offered
  case sound =>
    intro other
    by_cases same : other = op
    · rw [same]
      simp only [Function.update_self]
      exact (tidy.sound op).answer pending (Nat.le_trans fits within) waiting
    · simp only [Function.update_of_ne same]
      exact tidy.sound other
  case conserved =>
    obtain ⟨nothing, -⟩ := (tidy.sound op).of_pending pending
    have earlier := delivered_congr (s := s) (n := op)
      (r := Function.update s.reads op ((s.reads op).answer s.incoming nread))
      (fun other less => Function.update_of_ne (Nat.ne_of_lt less) ..)
    have conserved := tidy.conserved
    simp only [State.delivered, ← last, List.range_succ, List.flatMap_append, earlier,
      List.flatMap_cons, List.flatMap_nil, List.append_nil, nothing, Function.update_self]
      at conserved ⊢
    rw [Read.answer_got waiting, List.append_assoc, List.take_append_drop, conserved]
  case eof =>
    intro other reported
    by_cases same : other = op
    · rw [same] at reported
      simp only [Function.update_self, Read.answer, List.mem_singleton] at reported
      obtain ⟨ended, drained⟩ := eof (eof_of_streamReadResult reported)
      exact ⟨ended, by simp [drained]⟩
    · simp only [Function.update_of_ne same] at reported
      obtain ⟨ended, drained⟩ := tidy.eof other reported
      exact ⟨ended, by simp [drained]⟩

theorem step_tidy (tidy : Tidy s) (taken : step s a = some s') : Tidy s' := by
  cases Step.of_step taken with
  | arrive bytes opened =>
      refine ⟨tidy.slot, tidy.pending, tidy.offered, tidy.sound, ?_, ?_⟩
      · show s.delivered ++ (s.incoming ++ bytes) = s.arrived ++ bytes
        rw [← tidy.conserved, List.append_assoc]
      · intro op reported
        have ended := (tidy.eof op reported).1
        rw [opened] at ended
        cases ended
  | close =>
      refine ⟨tidy.slot, tidy.pending, tidy.offered, tidy.sound, tidy.conserved, ?_⟩
      intro op reported
      exact ⟨rfl, (tidy.eof op reported).2⟩
  | startRead span rc accepts point => exact startRead_tidy tidy point
  | allocCallback suggestedSize op slot reading polling =>
      refine ⟨tidy.slot, tidy.pending, ?_, tidy.sound, tidy.conserved, tidy.eof⟩
      intro op' length offered
      obtain ⟨rfl, rfl⟩ := Point.offered.inj offered
      exact ⟨slot, reading, Nat.min_le_right _ _⟩
  | readCallback nread op length offered fits waiting eof =>
      exact readCallback_tidy tidy offered fits waiting eof
  | callbackReturns calling =>
      refine ⟨tidy.slot, tidy.pending, ?_, tidy.sound, tidy.conserved, tidy.eof⟩
      intro op length offered
      cases offered

end StepLemmas

/-! ## Runs -/

theorem init_tidy : Tidy init where
  slot := by simp [init]
  pending := by simp [init]
  offered := by simp [init]
  sound _ := ⟨Nat.zero_le _, Nat.zero_le _, rfl, rfl⟩
  conserved := rfl
  eof := by simp [init]

/-- **Reads lose, duplicate and reorder nothing**, however the bytes are split and
wherever the next Read is started. -/
theorem reads_deliver_in_order {acts : List Act} {s : State}
    (reached : run step init acts = some s) :
    (∀ op < s.started, (s.reads op).completions.length ≤ 1 ∧
      (s.reads op).count ≤ (s.reads op).given.length ∧
      (s.reads op).span.drop (s.reads op).count = (s.reads op).given.drop (s.reads op).count) ∧
    s.delivered <+: s.arrived ∧
    ∀ op < s.started,
      .setError (.exception IoError.kEOF.makeErrorCode) ∈ (s.reads op).completions →
        s.ended = true ∧ s.delivered = s.arrived := by
  have tidy : Tidy s :=
    run_invariant (fun _ _ _ tidy taken => step_tidy tidy taken) init_tidy reached
  refine ⟨?sound, ?order, ?eof⟩
  case sound =>
    intro op _
    exact ⟨(tidy.sound op).once, (tidy.sound op).count_le, (tidy.sound op).beyond⟩
  case order => exact ⟨s.incoming, tidy.conserved⟩
  case eof =>
    intro op _ reported
    obtain ⟨ended, drained⟩ := tidy.eof op reported
    have conserved := tidy.conserved
    rw [drained, List.append_nil] at conserved
    exact ⟨ended, conserved⟩

/-- Two Reads, the second started inside the completion of the first. -/
def twoReads : List Act :=
  [.startRead ⟨[0, 0, 0], by decide⟩ 0, .arrive [1, 2, 3, 4, 5], .allocCallback 65536,
    .readCallback 2, .startRead ⟨[0, 0], by decide⟩ 0, .callbackReturns, .allocCallback 65536,
    .readCallback 0]

theorem reads_deliver_in_order_two :
    ∃ s, run step init twoReads = some s ∧
      (∀ op < s.started, (s.reads op).completions.length ≤ 1 ∧
        (s.reads op).count ≤ (s.reads op).given.length ∧
        (s.reads op).span.drop (s.reads op).count =
          (s.reads op).given.drop (s.reads op).count) ∧
      s.delivered <+: s.arrived ∧
      ∀ op < s.started,
        .setError (.exception IoError.kEOF.makeErrorCode) ∈ (s.reads op).completions →
          s.ended = true ∧ s.delivered = s.arrived := by
  obtain ⟨s, reached⟩ : ∃ s, run step init twoReads = some s :=
    Option.isSome_iff_exists.mp rfl
  exact ⟨s, reached, reads_deliver_in_order reached⟩

end PatBase.Runtime.StreamRead
