/-
# PatBase.Bytes.BufferFifo -- a `Buffer` is a FIFO byte queue

Any sequence of `Read` and `Write` calls on a buffer, however it was constructed,
answers as the abstract queue of `PatBase.Lib.Fifo` does on the initial content.
The storage the standard library grants may differ from call to call, so nothing
in the answers depends on the mode the buffer is in or on how a write made room.
-/
import PatBase.Bytes.Buffer
import PatBase.Lib.Fifo

namespace PatBase.Bytes.Buffer

open PatBase.Lib PatBase.Lib.Effect PatBase.Lib.Trace

set_option autoImplicit false

/-- A constructor call; the storage fixes the capacity of the default `buf_`. -/
inductive Construction where
  | default (st : Storage)
  | ofString (st : Storage) (str : StdString)
  | ofView (st : Storage) (str : Span)

def Construction.build : Construction → Buffer
  | .default st => Buffer.default st
  | .ofString st str => Buffer.ofString st str
  | .ofView st str => Buffer.ofView st str

def Construction.content : Construction → List UInt8
  | .default _ => []
  | .ofString _ str => str.bytes
  | .ofView _ str => str.1

/-- A member call.  Every write brings the answers of the allocator during it. -/
inductive Call where
  | read (dst : Span)
  | write (st : Storage) (src : Span)

def Call.abstract : Call → Fifo.Call UInt8
  | .read dst => .read dst.1
  | .write _ src => .write src.1

/-- The call is a write, and its allocator refuses a request for no more than the
stored bytes and the span. -/
def Call.Refused (c : Call) (w : World) (f : Fault) : Prop :=
  ∃ st src e, c = .write st src ∧ st.Refuses (w.buffer.active.length + src.size) e ∧
    f = .storage e

def perform : Call → Action (Fifo.Result UInt8)
  | .read dst => do
      let (count, span) ← read dst
      pure (.read count span)
  | .write st src => do
      let count ← write st src
      pure (.write count)

/-- A member call, then `Size()` and `Empty()`. -/
def call (w : World) (c : Call) : Except Fault (Fifo.Answer UInt8 × World) :=
  runExcept (do
    let result ← perform c
    let after ← get
    pure ⟨result, after.buffer.size, after.buffer.isEmpty⟩) w

theorem Construction.represents (made : Construction) :
    Represents made.build made.content := by
  cases made with
  | default st => exact represents_default st
  | ofString st str => exact represents_ofString st str
  | ofView st str => exact represents_ofView st str

section Call

variable {w w' : World} {q : List UInt8} {c : Call}

/-- One completed member call answers as the queue does. -/
theorem perform_refines {result : Fifo.Result UInt8} (rep : Represents w.buffer q)
    (completed : perform c w = .ok result w') :
    result = (Fifo.step q c.abstract).1.result ∧
      Represents w'.buffer (Fifo.step q c.abstract).2 := by
  cases c with
  | read dst =>
      obtain ⟨r, reads, kept⟩ := read_spec rep dst
      obtain ⟨answered, s, done, rest⟩ := bind_eq_ok.mp completed
      obtain ⟨rfl, rfl⟩ := EStateM.Result.ok.inj (reads.symm.trans done)
      obtain ⟨rfl, rfl⟩ := pure_eq_ok.mp rest
      exact ⟨rfl, kept⟩
  | write st src =>
      obtain ⟨count, s, done, rest⟩ := bind_eq_ok.mp completed
      obtain ⟨rfl, rfl⟩ := pure_eq_ok.mp rest
      obtain ⟨rfl, grown⟩ := write_spec rep done
      exact ⟨rfl, grown⟩

theorem call_refines {answer : Fifo.Answer UInt8} (rep : Represents w.buffer q)
    (completed : call w c = .ok (answer, w')) :
    answer = (Fifo.step q c.abstract).1 ∧ Represents w'.buffer (Fifo.step q c.abstract).2 := by
  obtain ⟨result, s, done, rest⟩ := bind_eq_ok.mp (runExcept_eq_ok.mp completed)
  obtain ⟨_, _, got, rest⟩ := bind_eq_ok.mp rest
  obtain ⟨rfl, rfl⟩ := get_eq_ok.mp got
  obtain ⟨rfl, rfl⟩ := pure_eq_ok.mp rest
  obtain ⟨rfl, kept⟩ := perform_refines rep done
  refine ⟨?_, kept⟩
  rw [kept.size_eq, kept.isEmpty_eq]
  cases c <;> rfl

/-- Only a refused storage request of a write stops a call. -/
theorem call_eq_error {f : Fault} (rep : Represents w.buffer q) (thrown : call w c = .error f) :
    c.Refused w f := by
  obtain ⟨s, stopped⟩ := runExcept_eq_error.mp thrown
  obtain inCall | ⟨_, _, -, rest⟩ := bind_eq_error.mp stopped
  · cases c with
    | read dst =>
        obtain ⟨r, reads, -⟩ := read_spec rep dst
        obtain inRead | ⟨_, _, -, rest⟩ := bind_eq_error.mp inCall
        · cases reads.symm.trans inRead
        · exact absurd rest pure_ne_error
    | write st src =>
        obtain inWrite | ⟨_, _, -, rest⟩ := bind_eq_error.mp inCall
        · obtain ⟨e, refuses, same⟩ := (write_eq_error rep inWrite).refused
          exact ⟨st, src, e, rfl, refuses, same⟩
        · exact absurd rest pure_ne_error
  · obtain got | ⟨_, _, -, rest⟩ := bind_eq_error.mp rest
    · exact absurd got get_ne_error
    · exact absurd rest pure_ne_error

end Call

/-- What is asked of the answers to `calls` when the buffer holds `q`: they are those of
the queue, or a write whose allocator refused a storage request stopped the calls. -/
def ObeysFifo (w : World) (q : List UInt8) (calls : List Call) : Prop :=
  match trace call w calls with
  | .ok (answers, w') =>
      answers = (Fifo.run q (calls.map Call.abstract)).1 ∧
        Represents w'.buffer (Fifo.run q (calls.map Call.abstract)).2
  | .error fault => ∃ before c after answers w', calls = before ++ c :: after ∧
      trace call w before = .ok (answers, w') ∧ c.Refused w' fault

theorem Represents.obeysFifo {w : World} {q : List UInt8} (rep : Represents w.buffer q)
    (calls : List Call) : ObeysFifo w q calls := by
  have simulates : ∀ (w : World) (q : List UInt8) (c : Call) (a : Fifo.Answer UInt8) (w' : World),
      Represents w.buffer q → call w c = .ok (a, w') →
        a = (Fifo.step q c.abstract).1 ∧ Represents w'.buffer (Fifo.step q c.abstract).2 :=
    fun _ _ _ _ _ rep completed => call_refines rep completed
  unfold ObeysFifo
  split
  · rename_i answers w' completed
    obtain ⟨same, kept⟩ := trace_refines simulates rep completed
    rw [specTrace_map Fifo.step Call.abstract] at same kept
    exact ⟨same, kept⟩
  · rename_i fault stopped
    obtain ⟨before, c, after, answers, w', split, earlier, thrown⟩ := trace_eq_error stopped
    obtain ⟨-, kept⟩ := trace_refines simulates rep earlier
    exact ⟨before, c, after, answers, w', split, earlier, call_eq_error kept thrown⟩

/-- **A buffer is a FIFO byte queue.**  A sequence of calls either completes with
the answers of the queue -- whose content is at every moment the initial content
followed by everything written, minus everything delivered -- or was stopped by a
write whose allocator refused a storage request. -/
theorem buffer_refines_fifo (made : Construction) (allocCounter : Option Nat)
    (calls : List Call) :
    match trace call ⟨made.build, allocCounter⟩ calls with
    | .ok (answers, w) =>
        answers = (Fifo.run made.content (calls.map Call.abstract)).1 ∧
          Represents w.buffer (Fifo.run made.content (calls.map Call.abstract)).2 ∧
          answers.flatMap Fifo.Answer.delivered ++ w.buffer.active.drop w.buffer.pos =
            made.content ++ (calls.map Call.abstract).flatMap Fifo.Call.written
    | .error fault => ∃ before c after answers w, calls = before ++ c :: after ∧
        trace call ⟨made.build, allocCounter⟩ before = .ok (answers, w) ∧ c.Refused w fault := by
  have start : Represents (World.mk made.build allocCounter).buffer made.content :=
    made.represents
  have obeys := start.obeysFifo calls
  unfold ObeysFifo at obeys
  split <;> rename_i ended <;> rw [ended] at obeys
  · obtain ⟨same, kept⟩ := obeys
    refine ⟨same, kept, ?_⟩
    rw [kept.unread, same]
    exact Fifo.conservation made.content (calls.map Call.abstract)
  · exact obeys

end PatBase.Bytes.Buffer
