/-
# PatBase.Runtime.Connection -- what one end writes and the other end reads

One direction of a TCP connection: the Writes and Closes at one end (`StreamWrite`), the
Reads at the other (`StreamRead`), and the network between them, which delivers the
bytes the kernel took in any pieces, and then the end of the stream.  The end follows
`shutdown(2)` or the `uv_close` of the writing end, behind every byte.

`Joined` is what the two ends know of each other; `peer_reads_what_was_written` says
what a Read that reports the end of the stream has told its caller.
-/
import PatBase.Runtime.StreamRead
import PatBase.Runtime.StreamWrite

namespace PatBase.Runtime.Connection

open PatBase.Lib PatBase.Lib.Machine

set_option autoImplicit false

structure State where
  writer : StreamWrite.State
  reader : StreamRead.State

inductive Act where
  | write (a : StreamWrite.Act)
  | read (a : StreamRead.Act)
  /-- The network delivers the next `n` bytes. -/
  | carry (n : Nat)
  /-- The network delivers the end of the stream. -/
  | fin

def init : State where
  writer := StreamWrite.init
  reader := StreamRead.init

/-- The writing end sends nothing more. -/
def Over (w : StreamWrite.State) : Prop :=
  w.shut = true ∨ w.stream.handle.phase ≠ .active

instance (w : StreamWrite.State) : Decidable (Over w) :=
  inferInstanceAs (Decidable (_ ∨ _))

/-- What the network has yet to deliver. -/
def State.inFlight (c : State) : List UInt8 := c.writer.sent.drop c.reader.arrived.length

/-- What the network does to the reading end is no step of that end. -/
def byReader : StreamRead.Act → Bool
  | .arrive _ => false
  | .close => false
  | _ => true

def step (c : State) : Act → Option State
  | .write a => (StreamWrite.step c.writer a).map fun writer => { c with writer := writer }
  | .read a =>
      if byReader a = true then
        (StreamRead.step c.reader a).map fun reader => { c with reader := reader }
      else none
  | .carry n =>
      (StreamRead.step c.reader (.arrive (c.inFlight.take n))).map fun reader =>
        { c with reader := reader }
  | .fin =>
      if Over c.writer ∧ c.inFlight = [] then
        (StreamRead.step c.reader .close).map fun reader => { c with reader := reader }
      else none

/-! ## The two ends -/

/-- What arrived is a prefix of what was sent; the end of the stream follows it all. -/
structure Joined (c : State) : Prop where
  flow : StreamWrite.Flow c.writer
  tidy : StreamRead.Tidy c.reader
  arrived : c.reader.arrived <+: c.writer.sent
  ended : c.reader.ended = true → Over c.writer ∧ c.reader.arrived = c.writer.sent

section Ends

variable {w w' : StreamWrite.State} {r r' : StreamRead.State}

open StreamWrite in
/-- A step of the writing end sends more, or the same and the stream is still over. -/
theorem write_sent {a : StreamWrite.Act} (flow : Flow w) (taken : StreamWrite.step w a = some w') :
    w.sent <+: w'.sent ∧ (Over w → Over w' ∧ w'.sent = w.sent) := by
  cases StreamWrite.Step.of_step taken with
  | startWrite msg rc accepts =>
      have same : (startWrite w msg rc).sent = w.sent ∧
          (startWrite w msg rc).shut = w.shut ∧ (startWrite w msg rc).stream = w.stream := by
        unfold startWrite
        split
        · exact ⟨rfl, rfl, rfl⟩
        · exact ⟨rfl, rfl, rfl⟩
      obtain ⟨sent, shut, stream⟩ := same
      refine ⟨sent ▸ List.prefix_refl _, fun past => ⟨?_, sent⟩⟩
      show (startWrite w msg rc).shut = true ∨ (startWrite w msg rc).stream.handle.phase ≠ .active
      rw [shut, stream]
      exact past
  | transmit op n rest head active fits =>
      have sent : (transmit w op rest n).sent = w.sent ++ (w.writes op).unsent.take n := by
        unfold transmit
        simp only
        split
        · rfl
        · rfl
      refine ⟨⟨_, sent.symm⟩, fun past => ?_⟩
      rcases past with shut | closed
      · have empty := flow.shut shut
        rw [head] at empty
        cases empty
      · exact absurd active closed
  | fail op rest status head failed => exact ⟨List.prefix_refl _, fun past => ⟨past, rfl⟩⟩
  | writeCallback op status rest head => exact ⟨List.prefix_refl _, fun past => ⟨past, rfl⟩⟩
  | startClose op rc =>
      refine ⟨List.prefix_refl _, fun past => ⟨past.imp_right fun closed => ?_, rfl⟩⟩
      rcases (startClose_handle w.stream op rc).2 with same | ⟨-, active⟩
      · rw [same]
        exact closed
      · exact absurd active closed
  | shutdownCallback op status asked drained succeeds =>
      refine ⟨List.prefix_refl _, fun past => ⟨past.imp (fun shut => ?_) fun closed => ?_, rfl⟩⟩
      · simp [shut]
      · rw [StreamHandle.shutdownCallback_handle, if_neg closed]
        exact closed
  | closeCallback op closing drained answered =>
      refine ⟨List.prefix_refl _, fun past => ⟨.inr ?_, rfl⟩⟩
      rw [(StreamHandle.closeCallback_frame w.stream op).2.2.1]
      intro active
      cases active
  | unwritable => exact ⟨List.prefix_refl _, fun past => ⟨past, rfl⟩⟩

/-- The steps of the reading end bring no bytes and no end. -/
theorem read_frame {a : StreamRead.Act} (own : byReader a = true)
    (taken : StreamRead.step r a = some r') : r'.arrived = r.arrived ∧ r'.ended = r.ended := by
  cases StreamRead.Step.of_step taken with
  | arrive bytes opened => cases own
  | close => cases own
  | readCallback nread op length offered fits waiting eof =>
      unfold StreamRead.readCallback StreamRead.fill
      simp only
      split
      · exact ⟨rfl, rfl⟩
      · exact ⟨rfl, rfl⟩
  | _ => exact ⟨rfl, rfl⟩

theorem step_joined {c c' : State} {a : Act} (joined : Joined c) (taken : step c a = some c') :
    Joined c' := by
  cases a with
  | write a =>
      obtain ⟨writer, moved, rfl⟩ := Option.map_eq_some_iff.mp taken
      obtain ⟨more, still⟩ := write_sent joined.flow moved
      refine ⟨StreamWrite.step_flow joined.flow moved, joined.tidy, joined.arrived.trans more, ?_⟩
      intro ended
      obtain ⟨past, arrived⟩ := joined.ended ended
      obtain ⟨past', same⟩ := still past
      exact ⟨past', arrived.trans same.symm⟩
  | read a =>
      simp only [step, Option.ite_none_right_eq_some, Option.map_eq_some_iff] at taken
      obtain ⟨own, reader, moved, rfl⟩ := taken
      obtain ⟨arrived, ended⟩ := read_frame own moved
      refine ⟨joined.flow, StreamRead.step_tidy joined.tidy moved, ?_, ?_⟩
      · show reader.arrived <+: c.writer.sent
        rw [arrived]
        exact joined.arrived
      · show reader.ended = true → Over c.writer ∧ reader.arrived = c.writer.sent
        rw [arrived, ended]
        exact joined.ended
  | carry n =>
      obtain ⟨reader, moved, rfl⟩ := Option.map_eq_some_iff.mp taken
      have tidy := StreamRead.step_tidy joined.tidy moved
      cases StreamRead.Step.of_step moved with
      | arrive bytes opened =>
          obtain ⟨rest, sent⟩ := joined.arrived
          refine ⟨joined.flow, tidy, ?_, fun ended => ?_⟩
          · show c.reader.arrived ++ c.inFlight.take n <+: c.writer.sent
            have flying : c.inFlight = rest := by
              rw [State.inFlight, ← sent, List.drop_left]
            rw [flying, ← sent]
            exact (List.prefix_append_right_inj _).mpr (List.take_prefix n rest)
          · cases opened.symm.trans ended
  | fin =>
      simp only [step, Option.ite_none_right_eq_some, Option.map_eq_some_iff] at taken
      obtain ⟨⟨past, none_⟩, reader, moved, rfl⟩ := taken
      have tidy := StreamRead.step_tidy joined.tidy moved
      cases StreamRead.Step.of_step moved with
      | close =>
          obtain ⟨rest, sent⟩ := joined.arrived
          refine ⟨joined.flow, tidy, joined.arrived, fun _ => ⟨past, ?_⟩⟩
          have nothing : rest = [] := by
            rw [State.inFlight, ← sent, List.drop_left] at none_
            exact none_
          show c.reader.arrived = c.writer.sent
          rw [← sent, nothing, List.append_nil]

end Ends

/-! ## Runs -/

section Runs

variable {acts : List Act} {c : State}

theorem init_joined : Joined init where
  flow := StreamWrite.init_flow
  tidy := StreamRead.init_tidy
  arrived := List.prefix_refl _
  ended := by simp [init, StreamRead.init]

/-- Some Read has reported the end of the stream. -/
def State.Reported (c : State) : Prop :=
  ∃ op < c.reader.started,
    .setError (.exception IoError.kEOF.makeErrorCode) ∈ (c.reader.reads op).completions

/-- What the writing end needs to keep every accepted byte. -/
def Careful (c : State) : Act → Prop
  | .write a => StreamWrite.Reliable c.writer a ∧ StreamWrite.Graceful c.writer a
  | _ => True

instance (c : State) : DecidablePred (Careful c)
  | .write _ => inferInstanceAs (Decidable (_ ∧ _))
  | .read _ | .carry _ | .fin => .isTrue trivial

theorem run_joined (reached : run step init acts = some c) : Joined c :=
  run_invariant (fun _ _ _ joined taken => step_joined joined taken) init_joined reached

theorem run_whole (careful : Along step Careful init acts)
    (reached : run step init acts = some c) : StreamWrite.Whole c.writer := by
  refine (careful.invariant (I := fun c =>
    (StreamWrite.Flow c.writer ∧ StreamWrite.Counted c.writer) ∧ StreamWrite.Whole c.writer) ?_
    ⟨⟨StreamWrite.init_flow, StreamWrite.init_counted⟩, StreamWrite.init_whole⟩ reached).2
  rintro c a c' ⟨⟨flow, right⟩, whole⟩ meets taken
  cases a with
  | write a =>
      obtain ⟨writer, moved, rfl⟩ := Option.map_eq_some_iff.mp taken
      exact ⟨⟨StreamWrite.step_flow flow moved, StreamWrite.step_counted right moved⟩,
        StreamWrite.step_whole flow right whole meets.1 meets.2 moved⟩
  | read a =>
      simp only [step, Option.ite_none_right_eq_some, Option.map_eq_some_iff] at taken
      obtain ⟨-, reader, -, rfl⟩ := taken
      exact ⟨⟨flow, right⟩, whole⟩
  | carry n =>
      obtain ⟨reader, -, rfl⟩ := Option.map_eq_some_iff.mp taken
      exact ⟨⟨flow, right⟩, whole⟩
  | fin =>
      simp only [step, Option.ite_none_right_eq_some, Option.map_eq_some_iff] at taken
      obtain ⟨-, reader, -, rfl⟩ := taken
      exact ⟨⟨flow, right⟩, whole⟩

/-- **The peer reads what was written.**  What the Reads at one end have delivered is a
prefix of what the Writes at the other end sent, in the order they were started; a Read
that reports the end of the stream says that it is everything sent.  If each Write
completed with a value, that is every message; and if no request fails and each Close is
graceful, it is every accepted message, also of Writes the Close found unsent. -/
theorem peer_reads_what_was_written (reached : run step init acts = some c) :
    (c.reader.delivered <+: c.writer.accepted.flatMap fun op =>
      (c.writer.writes op).msg.take (c.writer.writes op).taken) ∧
    (c.Reported → c.reader.delivered = c.writer.sent ∧
      ((∀ op < c.writer.started, ∃ v, .setValue v ∈ (c.writer.writes op).completions) →
        c.reader.delivered =
          (List.range c.writer.started).flatMap fun op => (c.writer.writes op).msg)) ∧
    (Along step Careful init acts →
      (c.reader.delivered <+: c.writer.accepted.flatMap fun op => (c.writer.writes op).msg) ∧
      (c.Reported →
        c.reader.delivered = c.writer.accepted.flatMap fun op => (c.writer.writes op).msg)) := by
  obtain ⟨flow, tidy, arrived, ended⟩ := run_joined reached
  have delivered : c.reader.delivered <+: c.writer.sent :=
    List.IsPrefix.trans ⟨c.reader.incoming, tidy.conserved⟩ arrived
  -- at the end of the stream nothing is in flight and nothing is unread
  have last : c.Reported → c.reader.delivered = c.writer.sent ∧ Over c.writer := by
    rintro ⟨op, -, reported⟩
    obtain ⟨past, drained⟩ := tidy.eof op reported
    obtain ⟨pastWriter, all⟩ := ended past
    have conserved := tidy.conserved
    rw [drained, List.append_nil] at conserved
    exact ⟨conserved.trans all, pastWriter⟩
  refine ⟨?order, ?reported, ?careful⟩
  case order =>
    have sent := flow.sent
    simp only [StreamWrite.Write.sent] at sent
    rw [← sent]
    exact delivered
  case reported =>
    intro reported
    refine ⟨(last reported).1, fun values => ?_⟩
    have accepted := flow.accepted_all values
    rw [(last reported).1, ← accepted]
    refine flow.sent_whole fun op member => ?_
    rw [accepted, List.mem_range] at member
    obtain ⟨v, value⟩ := values op member
    exact (flow.value op v value).2
  case careful =>
    intro careful
    have whole := run_whole careful reached
    refine ⟨delivered.trans (whole.sent_prefix flow), fun reported => ?_⟩
    obtain ⟨all, past⟩ := last reported
    rw [all]
    refine flow.sent_whole fun op member => ?_
    rcases past with shut | closed
    · rcases whole.finished op member with queued | out
      · rw [flow.shut shut] at queued
        cases queued
      · exact out
    · exact whole.closed closed op member

theorem readBuf_fits : [(0 : UInt8), 0].length ≤ maxSize := by decide

def readBuf : Span := ⟨[0, 0], readBuf_fits⟩

/-- A Close that finds a Write unsent: the peer reads the message to its end. -/
def session : List Act :=
  [.write (.startWrite [1, 2, 3] 0), .write (.transmit 1), .carry 1,
    .read (.startRead readBuf 0), .write (.startClose 0 0), .write .unwritable,
    .read (.allocCallback 65536), .read (.readCallback 1), .read .callbackReturns,
    .write (.transmit 2), .write .writeCallback, .carry 5, .write (.shutdownCallback 0),
    .read (.startRead readBuf 0), .read (.allocCallback 65536),
    .read (.readCallback 2), .fin, .read (.startRead readBuf 0),
    .read .callbackReturns, .read (.allocCallback 65536), .read (.readCallback uvEOF)]

theorem peer_reads_what_was_written_session :
    ∃ c, run step init session = some c ∧ c.Reported ∧
      c.reader.delivered = c.writer.accepted.flatMap fun op => (c.writer.writes op).msg := by
  obtain ⟨c, reached⟩ : ∃ c, run step init session = some c := Option.isSome_iff_exists.mp rfl
  have careful : Along step Careful init session := by decide
  have reported : c.Reported := by
    rw [← Option.some.inj reached]
    exact ⟨2, by decide, by decide⟩
  exact ⟨c, reached, reported, ((peer_reads_what_was_written reached).2.2 careful).2 reported⟩

end Runs

end PatBase.Runtime.Connection
