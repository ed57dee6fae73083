/-
# PatBase.Runtime.TcpSocket -- who the `data` slot of a socket belongs to

Connect, Read and Close of one `TCPSocket` share the slot, and none of them looks
whether another still needs it.  `Holder` says which one does.

* `callbacks_reach_own`: in every run in which no operation takes the slot while
  another holds it, every callback reaches the object that installed it, and every
  Read completes once or still has its callback to come.

`read_over_read` is a run in which an operation does take it; a Close over a pending
Read and a move before a Connect follow it.
-/
import PatBase.Runtime.StreamHandle

namespace PatBase.Runtime.TcpSocket

open PatBase.Lib.Machine PatBase.Runtime.StreamHandle

set_option autoImplicit false
set_option linter.unusedSectionVars false

variable {s s' : State} {op : Nat} {rc : Int} {a : Act} {acts : List Act}

/-- `TCPSocket::TCPSocket()` -/
def construct : State :=
  .ofHandle ⟨none, false, 0, .active, none, false⟩

/-! ## What is assumed and what is promised -/

/-- Every Read is started once, and at most one Close is. -/
def OneClose (s : State) : Act → Prop
  | .startRead op _ => .read op ∉ s.started
  | .startClose _ _ => ∀ op, .close op ∉ s.started
  | _ => True

/-- No operation takes the slot from another: a Connect is not created while a Read or
a Close is in flight; the socket is not moved, and no Read or Close started, between
the creation and the continuation of a Connect or while a Read is pending; a Read is
not started once a Close has been, and `uv_read_start` does not refuse it. -/
def Exclusive (s : State) : Act → Prop
  | .createConnect =>
      s.handle.reading = none ∧ s.shutdown = none ∧ ∀ op, s.handle.phase ≠ .closing op
  | .moveOut => s.connects = 0 ∧ s.handle.reading = none ∧ s.shutdown = none
  | .startRead _ rc =>
      s.connects = 0 ∧ s.handle.reading = none ∧ s.shutdown = none ∧
        s.handle.phase = .active ∧ 0 ≤ rc
  | .startClose _ _ => s.connects = 0 ∧ s.handle.reading = none
  | _ => True

/-- Every callback and cast reached its own object, and every Read has completed
once, or libuv has its callback and will find it in the slot. -/
structure Faithful (s : State) : Prop where
  own : s.strays = 0
  once : ∀ op, (s.signals (.read op)).length ≤ 1
  pending : ∀ op, .read op ∈ s.started → s.signals (.read op) = [] →
    s.handle.reading = some op ∧ s.handle.data = some (.read op)

/-! ## The invariant -/

/-- Who needs the slot. -/
inductive Holder (s : State) : Prop where
  | nobody (connects : s.connects = 0) (reading : s.handle.reading = none)
      (shutdown : s.shutdown = none) (phase : ∀ op, s.handle.phase ≠ .closing op)
  | socket (data : s.handle.data = some .socket) (reading : s.handle.reading = none)
      (shutdown : s.shutdown = none) (phase : ∀ op, s.handle.phase ≠ .closing op)
  | reader (op : Nat) (data : s.handle.data = some (.read op)) (connects : s.connects = 0)
      (reading : s.handle.reading = some op) (shutdown : s.shutdown = none)
      (phase : s.handle.phase = .active)
  | closer (op : Nat) (data : s.handle.data = some (.close op)) (connects : s.connects = 0)
      (reading : s.handle.reading = none) (member : .close op ∈ s.started)
      (shutdown : ∀ other, s.shutdown = some other → other = op)
      (phase : ∀ other, s.handle.phase = .closing other → other = op)

/-- The Reads so far: a Read that has not completed is the one libuv reads for. -/
structure Reads (s : State) : Prop where
  own : s.strays = 0
  once : ∀ op, (s.signals (.read op)).length ≤ 1
  pending : ∀ op, .read op ∈ s.started → s.signals (.read op) = [] → s.handle.reading = some op
  unstarted : ∀ op, .read op ∉ s.started → s.signals (.read op) = []
  unfinished : ∀ op, s.handle.reading = some op →
    .read op ∈ s.started ∧ s.signals (.read op) = []

theorem faithful (holder : Holder s) (reads : Reads s) : Faithful s where
  own := reads.own
  once := reads.once
  pending op member unfinished := by
    have reading := reads.pending op member unfinished
    refine ⟨reading, ?_⟩
    cases holder with
    | nobody connects idle => cases idle.symm.trans reading
    | socket data idle => cases idle.symm.trans reading
    | closer other data connects idle => cases idle.symm.trans reading
    | reader other data connects reading' =>
        obtain rfl : other = op := Option.some.inj (reading'.symm.trans reading)
        exact data

/-- A step that starts and completes no Read and leaves the reading alone. -/
theorem Reads.congr (reads : Reads s) (strays : s'.strays = s.strays)
    (signals : ∀ op, s'.signals (.read op) = s.signals (.read op))
    (started : ∀ op, .read op ∈ s'.started ↔ .read op ∈ s.started)
    (reading : s'.handle.reading = s.handle.reading) : Reads s' where
  own := strays.trans reads.own
  once op := by
    rw [signals]
    exact reads.once op
  pending op member unfinished := by
    rw [reading]
    rw [signals] at unfinished
    exact reads.pending op ((started op).mp member) unfinished
  unstarted op outside := by
    rw [signals]
    exact reads.unstarted op fun member => outside ((started op).mpr member)
  unfinished op reading' := by
    rw [signals, started]
    exact reads.unfinished op (reading ▸ reading')

/-- The holder of the slot while libuv reads. -/
theorem Holder.of_reading (holder : Holder s) (reading : s.handle.reading = some op) :
    s.handle.data = some (.read op) ∧ s.connects = 0 ∧ s.shutdown = none ∧
      s.handle.phase = .active := by
  cases holder with
  | nobody connects idle => cases idle.symm.trans reading
  | socket data idle => cases idle.symm.trans reading
  | closer other data connects idle => cases idle.symm.trans reading
  | reader other data connects reading' shutdown phase =>
      obtain rfl : other = op := Option.some.inj (reading'.symm.trans reading)
      exact ⟨data, connects, shutdown, phase⟩

/-- The holder of the slot while a shutdown is pending or the handle is closing. -/
theorem Holder.of_closing (holder : Holder s)
    (closing : s.shutdown = some op ∨ s.handle.phase = .closing op) :
    s.handle.data = some (.close op) ∧ s.connects = 0 ∧ s.handle.reading = none ∧
      .close op ∈ s.started ∧ (∀ other, s.shutdown = some other → other = op) ∧
      ∀ other, s.handle.phase = .closing other → other = op := by
  have idle : ¬ (s.shutdown = none ∧ ∀ op, s.handle.phase ≠ .closing op) := by
    rintro ⟨noShutdown, notClosing⟩
    rcases closing with shutdown | phase
    · cases noShutdown.symm.trans shutdown
    · exact notClosing op phase
  cases holder with
  | nobody connects reading shutdown phase => exact absurd ⟨shutdown, phase⟩ idle
  | socket data reading shutdown phase => exact absurd ⟨shutdown, phase⟩ idle
  | reader other data connects reading shutdown phase =>
      exact absurd ⟨shutdown, fun op => by simp [phase]⟩ idle
  | closer other data connects reading member shutdown phase =>
      obtain rfl : op = other := by
        rcases closing with asked | closing
        · exact shutdown op asked
        · exact phase op closing
      exact ⟨data, connects, reading, member, shutdown, phase⟩

/-! ## Steps -/

theorem started_close (other : Nat) :
    .read other ∈ s.started ++ [.close op] ↔ Target.read other ∈ s.started := by
  simp

theorem startRead_keeps (reads : Reads s) (connects : s.connects = 0)
    (free : s.handle.reading = none) (shutdown : s.shutdown = none)
    (active : s.handle.phase = .active) (accepted : 0 ≤ rc) (fresh : .read op ∉ s.started) :
    Holder (startRead s op rc) ∧ Reads (startRead s op rc) := by
  have result : startRead s op rc = { takeSlot s (.read op) with
      handle := { (takeSlot s (.read op)).handle with reading := some op } } := if_pos accepted
  rw [result]
  refine ⟨.reader op rfl connects rfl shutdown active, reads.own, reads.once, ?pending, ?unstarted,
    ?unfinished⟩
  case pending =>
    intro other member unfinished
    have among : Target.read other ∈ s.started ++ [.read op] := member
    rcases List.mem_append.mp among with old | new
    · cases free.symm.trans (reads.pending other old unfinished)
    · rw [Target.read.inj (List.mem_singleton.mp new)]
  case unstarted =>
    intro other outside
    exact reads.unstarted other fun member => outside (List.mem_append_left _ member)
  case unfinished =>
    intro other reading
    rw [← Option.some.inj reading]
    exact ⟨List.mem_append_right _ (List.mem_singleton_self _), reads.unstarted op fresh⟩

/-- The read callback reaches its own Read, which had not completed. -/
theorem readCallback_keeps (holder : Holder s) (reads : Reads s)
    (reading : s.handle.reading = some op) (nread : Int) :
    Holder (readCallback s op nread) ∧ Reads (readCallback s op nread) := by
  obtain ⟨data, connects, shutdown, phase⟩ := holder.of_reading reading
  obtain ⟨member, unfinished⟩ := reads.unfinished op reading
  have result : readCallback s op nread =
      signal (uvReadStop s) (.read op) (Operation.streamReadResult nread) := by
    have first : access (uvReadStop s) (.read op) (some (.read op)) = uvReadStop s :=
      access_own unfinished
    have slot : (uvReadStop s).handle.data = some (.read op) := data
    simp only [readCallback, data, first, slot]
  rw [result]
  refine ⟨.nobody connects rfl shutdown ?phase, reads.own, ?once, ?pending, ?unstarted, nofun⟩
  case phase =>
    intro other
    show s.handle.phase ≠ .closing other
    rw [phase]
    nofun
  case once =>
    intro other
    by_cases same : other = op
    · rw [same, signal_signals_self]
      show (s.signals (.read op) ++ [_]).length ≤ 1
      rw [unfinished]
      exact Nat.le_refl 1
    · rw [signal_signals_other fun h => same (Target.read.inj h)]
      exact reads.once other
  case pending =>
    intro other member completed
    by_cases same : other = op
    · rw [same, signal_signals_self] at completed
      exact absurd completed (by simp)
    · rw [signal_signals_other fun h => same (Target.read.inj h)] at completed
      have waits := reads.pending other member completed
      exact absurd (Option.some.inj (waits.symm.trans reading)) same
  case unstarted =>
    intro other outside
    by_cases same : other = op
    · exact absurd member (same ▸ outside)
    · rw [signal_signals_other fun h => same (Target.read.inj h)]
      exact reads.unstarted other outside

theorem startClose_keeps (holder : Holder s) (reads : Reads s) (connects : s.connects = 0)
    (free : s.handle.reading = none) (first : ∀ op, .close op ∉ s.started) :
    Holder (startClose s op rc) ∧ Reads (startClose s op rc) := by
  have idle : s.shutdown = none ∧ ∀ op, s.handle.phase ≠ .closing op := by
    cases holder with
    | nobody connects reading shutdown phase => exact ⟨shutdown, phase⟩
    | socket data reading shutdown phase => exact ⟨shutdown, phase⟩
    | reader other data connects reading => cases free.symm.trans reading
    | closer other data connects reading member => exact absurd member (first other)
  have member : .close op ∈ s.started ++ [.close op] :=
    List.mem_append_right _ (List.mem_singleton_self _)
  have taken : Reads (takeSlot s (.close op)) :=
    reads.congr rfl (fun _ => rfl) started_close rfl
  rcases startClose_cases s op rc with
    ⟨-, -, result⟩ | ⟨-, -, result⟩ | ⟨-, -, result⟩ | ⟨-, -, result⟩
  · rw [result]
    refine ⟨.closer op rfl connects free member (fun other asked => ?_) fun other closing => ?_,
      taken.congr rfl (fun _ => rfl) (fun _ => Iff.rfl) rfl⟩
    · exact (Option.some.inj asked).symm
    · exact absurd closing (idle.2 other)
  · rw [result]
    exact ⟨.nobody connects free idle.1 idle.2, taken⟩
  · rw [result]
    refine ⟨.closer op rfl connects rfl member (fun other asked => ?_) fun other closing => ?_,
      taken.congr rfl (fun _ => rfl) (fun _ => Iff.rfl) free.symm⟩
    · cases idle.1.symm.trans asked
    · exact (Phase.closing.inj closing).symm
  · rw [result]
    exact ⟨.nobody connects free idle.1 idle.2,
      taken.congr rfl (fun _ => signal_signals_other nofun) (fun _ => Iff.rfl) rfl⟩

theorem shutdownCallback_keeps (holder : Holder s) (reads : Reads s)
    (asked : s.shutdown = some op) (status : Int) :
    Holder (shutdownCallback s op status) ∧ Reads (shutdownCallback s op status) := by
  obtain ⟨data, connects, free, member, -, phase⟩ := holder.of_closing (.inl asked)
  obtain ⟨started, shutdown, data', strays, connects'⟩ := shutdownCallback_frame s op status
  have handle := shutdownCallback_handle s op status
  have idle : (shutdownCallback s op status).handle.reading = none := by
    rw [handle]
    split
    · rfl
    · exact free
  constructor
  · refine .closer op (data'.trans data) (connects'.trans connects) idle (started ▸ member)
      (fun other still => ?_) fun other closing => ?_
    · cases shutdown.symm.trans still
    · rw [handle] at closing
      split at closing
      · exact (Phase.closing.inj closing).symm
      · exact phase other closing
  · exact reads.congr strays (fun _ => shutdownCallback_signals_other nofun)
      (fun _ => by rw [started]) (idle.trans free.symm)

theorem closeCallback_keeps (holder : Holder s) (reads : Reads s)
    (closing : s.handle.phase = .closing op) :
    Holder (closeCallback s op) ∧ Reads (closeCallback s op) := by
  obtain ⟨data, connects, free, member, shutdown, phase⟩ := holder.of_closing (.inr closing)
  have strays : (access (uvClosed s) (.close op) (some (.close op))).strays = s.strays :=
    if_pos rfl
  rw [closeCallback_slot data]
  exact ⟨.closer op data connects free member shutdown nofun,
    reads.congr strays (fun _ => signal_signals_other nofun) (fun _ => Iff.rfl) rfl⟩

theorem continueConnect_keeps (holder : Holder s) (reads : Reads s) (created : 0 < s.connects) :
    Holder (continueConnect s) ∧ Reads (continueConnect s) := by
  cases holder with
  | nobody connects => exact absurd connects (Nat.ne_of_gt created)
  | reader op data connects => exact absurd connects (Nat.ne_of_gt created)
  | closer op data connects => exact absurd connects (Nat.ne_of_gt created)
  | socket data reading shutdown phase =>
      have strays : (continueConnect s).strays = s.strays := by
        simp only [continueConnect, data, if_true, access]
      have handle : (continueConnect s).handle = ⟨some .socket, false, 0, .active, none, true⟩ := by
        simp only [continueConnect, data]
        rfl
      have rest : (continueConnect s).shutdown = none ∧
          (continueConnect s).signals = s.signals ∧ (continueConnect s).started = s.started := by
        simp only [continueConnect, data]
        exact ⟨rfl, rfl, rfl⟩
      obtain ⟨shutdown', signals, started⟩ := rest
      refine ⟨.socket ?_ ?_ shutdown' fun op => ?_,
        reads.congr strays (fun _ => by rw [signals]) (fun _ => by rw [started]) ?_⟩
      · rw [handle]
      · rw [handle]
      · simp [handle]
      · rw [handle, reading]

/-- **An exclusive step** reaches its own object and keeps one holder of the slot. -/
theorem step_keeps (holder : Holder s) (reads : Reads s) (once : OneClose s a)
    (exclusive : Exclusive s a) (taken : step s a = some s') : Holder s' ∧ Reads s' := by
  cases Step.of_step taken with
  | createConnect =>
      obtain ⟨reading, shutdown, phase⟩ := exclusive
      exact ⟨.socket rfl reading shutdown phase,
        reads.congr rfl (fun _ => rfl) (fun _ => Iff.rfl) rfl⟩
  | continueConnect created => exact continueConnect_keeps holder reads created
  | moveOut =>
      obtain ⟨connects, reading, shutdown⟩ := exclusive
      exact ⟨.nobody connects rfl shutdown (fun _ => nofun),
        reads.congr rfl (fun _ => rfl) (fun _ => Iff.rfl) reading.symm⟩
  | startRead op rc =>
      obtain ⟨connects, reading, shutdown, phase, accepted⟩ := exclusive
      exact startRead_keeps reads connects reading shutdown phase accepted once
  | allocCallback op reading =>
      obtain ⟨data, connects, shutdown, phase⟩ := holder.of_reading reading
      have strays : (access s (.read op) s.handle.data).strays = s.strays := if_pos data
      exact ⟨.reader op data connects reading shutdown phase,
        reads.congr strays (fun _ => rfl) (fun _ => Iff.rfl) rfl⟩
  | readCallback op nread reading => exact readCallback_keeps holder reads reading nread
  | startClose op rc => exact startClose_keeps holder reads exclusive.1 exclusive.2 once
  | shutdownCallback op status asked => exact shutdownCallback_keeps holder reads asked status
  | closeCallback op closing => exact closeCallback_keeps holder reads closing
  | traffic writable size active =>
      refine ⟨?_, reads.congr rfl (fun _ => rfl) (fun _ => Iff.rfl) rfl⟩
      cases holder with
      | nobody connects reading shutdown phase => exact .nobody connects reading shutdown phase
      | socket data reading shutdown phase => exact .socket data reading shutdown phase
      | reader op data connects reading shutdown phase =>
          exact .reader op data connects reading shutdown phase
      | closer op data connects reading member shutdown phase =>
          exact .closer op data connects reading member shutdown phase

/-! ## Runs -/

theorem construct_reads : Reads construct :=
  ⟨rfl, fun _ => Nat.zero_le _, nofun, fun _ _ => rfl, nofun⟩

/-- **Callbacks reach their own operation** in every state of every run whose steps
leave the slot to its holder, and every Read completes once. -/
theorem callbacks_reach_own
    (meets : Along step (fun s a => OneClose s a ∧ Exclusive s a) construct acts)
    (visited : Visits step construct acts s) : Faithful s := by
  have kept : Holder s ∧ Reads s := by
    refine meets.invariant_visited (I := fun s => Holder s ∧ Reads s) ?_
      ⟨.nobody rfl rfl rfl (fun _ => nofun), construct_reads⟩ visited
    rintro s a s' ⟨holder, reads⟩ ⟨once, exclusive⟩ taken
    exact step_keeps holder reads once exclusive taken
  exact faithful kept.1 kept.2

/-- A socket connects, reads and closes. -/
theorem callbacks_reach_own_session :
    ∃ s, run step construct [.createConnect, .continueConnect, .startRead 0 0, .allocCallback,
        .readCallback 5, .startClose 0 0, .closeCallback] = some s ∧ Faithful s := by
  have meets : Along step (fun s a => OneClose s a ∧ Exclusive s a) construct
      [.createConnect, .continueConnect, .startRead 0 0, .allocCallback, .readCallback 5,
        .startClose 0 0, .closeCallback] := by
    refine along_cons ⟨trivial, rfl, rfl, fun _ => nofun⟩ rfl ?_
    refine along_cons ⟨trivial, trivial⟩ rfl ?_
    refine along_cons ⟨List.not_mem_nil, rfl, rfl, rfl, rfl, Int.le_refl 0⟩ rfl ?_
    refine along_cons ⟨trivial, trivial⟩ rfl (along_cons ⟨trivial, trivial⟩ rfl ?_)
    refine along_cons ⟨fun op member => ?_, rfl, rfl⟩ rfl
      (along_cons ⟨trivial, trivial⟩ rfl trivial)
    cases List.mem_singleton.mp member
  exact ⟨_, rfl, callbacks_reach_own meets (visits_last rfl)⟩

/-- A second Read while the first is pending: it is refused, but holds the slot, and
the first Read's callback completes it. -/
theorem read_over_read :
    ∃ s, run step construct [.createConnect, .continueConnect, .startRead 0 0, .startRead 1 (-114),
        .readCallback 5] = some s ∧
      s.signals (.read 0) = [] ∧ s.handle.reading = none ∧
      s.signals (.read 1) = [(.setValue (.count 5), .active)] ∧ s.strays = 1 ∧ ¬ Faithful s :=
  ⟨_, rfl, rfl, rfl, rfl, rfl, fun faithful => absurd faithful.own (by decide)⟩

/-- A Close with unsent data leaves the reading on: the read callback takes the Close
for a Read. -/
example :
    (run step construct [.createConnect, .continueConnect, .traffic true 5, .startRead 0 0,
        .startClose 0 0, .readCallback 5]).map (fun s => (s.handle.data, s.strays)) =
      some (some (.close 0), 1) := rfl

/-- A socket moved after its Connect was created: the continuation casts a null pointer. -/
example :
    (run step construct [.createConnect, .moveOut, .continueConnect]).map
        (fun s => (s.handle.data, s.init, s.strays)) =
      some (none, false, 1) := rfl

end PatBase.Runtime.TcpSocket
