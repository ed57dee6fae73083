/-
# PatBase.Runtime.Client -- the network test of test.cc

`main` looks a host up, connects a socket to the first address, writes a request, reads
twice and closes the socket; a `let_error` closes it after a failure and throws the
error again, and the socket is destroyed when all that has completed.  The pipeline is
the one the source builds, over `PatBase.Lib.Signals`; what its senders do to the socket
is `SocketLifetime`, and what they complete with is `Operation`.

`socket_closed_once_iff` follows the signals through it: the destructor terminates
exactly where the Connect was cancelled before it ran, and everywhere else one Close
has completed and the error that `main` catches is the one that was signalled.
-/
import PatBase.Lib.Signals
import PatBase.Net.Ip
import PatBase.Runtime.Operation
import PatBase.Runtime.SocketLifetime

namespace PatBase.Runtime.Client

open PatBase.Lib.Signals PatBase.Net
open PatBase.Runtime.SocketLifetime (Socket Flags Truthful uvIsClosing)

set_option autoImplicit false

instance (socket : Socket) : Decidable socket.Terminates :=
  inferInstanceAs (Decidable (_ = _))

/-! ## The pipeline -/

inductive Leaf where
  | lookupIp
  /-- `TCPSocket{}`, for `let_value_with`. -/
  | construct
  | connect (ip : Ip)
  | write
  /-- `read_buf.resize(65536)` -/
  | resize
  | read
  | close
  /-- `~TCPSocket` -/
  | destroy
  deriving DecidableEq

inductive Result where
  | ips (found : List Ip)
  | value (v : Value)
  deriving DecidableEq

inductive Exception where
  | failure (failure : Failure)
  /-- From `ips.at(0)`. -/
  | outOfRange
  | badAlloc
  deriving DecidableEq

/-- The addresses that `LookupIp` gave. -/
def Result.addresses : Result → List Ip
  | .ips found => found
  | .value _ => []

/-- A `then` that prints what it is given. -/
def print (_ : Result) : Signal Result Exception := .value (.value .unit)

/-- Everything between the construction of the socket and its end. -/
def session (ip : Ip) : Pipeline Leaf Result Exception :=
  ((((Pipeline.leaf (.connect ip)).andLet fun _ => .leaf .write).andLet fun _ =>
      (Pipeline.leaf .resize).andLet fun _ =>
        (((Pipeline.leaf .read).andThen print).andLet fun _ => .leaf .read).andThen
          print).andLet fun _ => .leaf .close).letError fun err =>
    (Pipeline.leaf .close).andThen fun _ => .error err

/-- `glb_snd` -/
def glbSnd : Pipeline Leaf Result Exception :=
  (Pipeline.leaf .lookupIp).andLet fun rv =>
    match rv.addresses with
    | ip :: _ => .letValueWith .construct .destroy (session ip)
    | [] => .just (.error .outOfRange)

/-! ## What the senders do -/

structure State where
  socket : Option Socket
  /-- `std::terminate` was called. -/
  terminated : Bool
  /-- The senders that have completed, with their signals. -/
  log : List (Leaf × Signal Result Exception)

def init : State := ⟨none, false, []⟩

def State.logs (s : State) (l : Leaf) (signal : Signal Result Exception) : State :=
  { s with log := s.log ++ [(l, signal)] }

/-- `set_value` and `set_error` of an operation. -/
def completes (completion : Completion) : Signal Result Exception :=
  completion.signal .value .failure

/-- The socket after some of its reads and writes were served; what a request had queued
is off the queue when it calls back. -/
def served (socket : Socket) (others : Flags) : Socket :=
  { socket with flags := SocketLifetime.traffic socket.flags others, writeQueueSize := 0 }

/-- The completions of each sender, with what it did to the socket. -/
inductive Perform : Leaf → State → Signal Result Exception → State → Prop where
  | lookupIp (s : State) (signal : Signal Result Exception) :
      Perform .lookupIp s signal (s.logs .lookupIp signal)
  | construct (s : State) :
      Perform .construct s (.value (.value .unit))
        ({ s with socket := some .construct }.logs .construct (.value (.value .unit)))
  /-- The `schedule()` of Connect finds that stop was requested. -/
  | cancelled {s : State} {socket : Socket} (ip : Ip) (live : s.socket = some socket) :
      Perform (.connect ip) s .done (s.logs (.connect ip) .done)
  | connect {s : State} {socket made : Socket} (ip : Ip) (created : Bool) (others : Flags)
      (report : Report) (live : s.socket = some socket)
      (initialised :
        Socket.continueConnect { socket with connects := socket.connects + 1 } created =
          some made) :
      Perform (.connect ip) s (completes (Operation.tcpConnectOp.callback report))
        ({ s with socket := some (served made others) }.logs (.connect ip)
          (completes (Operation.tcpConnectOp.callback report)))
  | write {s : State} {socket : Socket} (others : Flags) (report : Report)
      (live : s.socket = some socket) :
      Perform .write s (completes (Operation.streamWriteOp.callback report))
        ({ s with socket := some (served socket others) }.logs .write
          (completes (Operation.streamWriteOp.callback report)))
  | resized (s : State) :
      Perform .resize s (.value (.value .unit)) (s.logs .resize (.value (.value .unit)))
  | refused (s : State) : Perform .resize s (.error .badAlloc) (s.logs .resize (.error .badAlloc))
  | read {s : State} {socket : Socket} (others : Flags) (report : Report)
      (live : s.socket = some socket) :
      Perform .read s (completes (Operation.streamReadOp.callback report))
        ({ s with socket := some (served socket others) }.logs .read
          (completes (Operation.streamReadOp.callback report)))
  /-- A Close that calls `uv_close`, and its callback. -/
  | closed {s : State} {socket closing after : Socket} (accepted : Bool)
      (live : s.socket = some socket) (started : socket.startClose accepted = some closing)
      (called : closing.closeCallback = some after) :
      Perform .close s (.value (.value .unit))
        ({ s with socket := some after }.logs .close (.value (.value .unit)))
  /-- A Close of a handle that is closing, with nothing unsent. -/
  | closedAlready {s : State} {socket : Socket} (accepted : Bool) (live : s.socket = some socket)
      (closing : uvIsClosing socket.flags = true)
      (started : socket.startClose accepted = some socket) :
      Perform .close s (.value (.value .unit)) (s.logs .close (.value (.value .unit)))
  /-- A Close that asks for a shutdown, which succeeds. -/
  | shutDown {s : State} {socket asked closing after : Socket} (live : s.socket = some socket)
      (started : socket.startClose true = some asked)
      (drained : asked.shutdownCallback = some closing)
      (called : closing.closeCallback = some after) :
      Perform .close s (.value (.value .unit))
        ({ s with socket := some after }.logs .close (.value (.value .unit)))
  /-- The shutdown fails; its callback signals that before it closes the handle. -/
  | notShutDown {s : State} {socket asked : Socket} (status : Int) (failed : status < 0)
      (live : s.socket = some socket) (started : socket.startClose true = some asked)
      (pending : 0 < asked.shutdowns) :
      Perform .close s (completes (uvError status))
        ({ s with socket := some { asked with shutdowns := asked.shutdowns - 1 } }.logs .close
          (completes (uvError status)))
  /-- `uv_close` aborts. -/
  | aborted {s : State} {socket : Socket} (accepted : Bool) (live : s.socket = some socket)
      (started : socket.startClose accepted = none) :
      Perform .close s .done ({ s with terminated := true }.logs .close .done)
  | destroy {s : State} {socket : Socket} (live : s.socket = some socket)
      (closing : ¬ socket.Terminates) :
      Perform .destroy s (.value (.value .unit))
        ({ s with socket := none }.logs .destroy (.value (.value .unit)))
  /-- Nothing of the program goes on after this. -/
  | terminate {s : State} {socket : Socket} (live : s.socket = some socket)
      (terminates : socket.Terminates) :
      Perform .destroy s .done ({ s with terminated := true }.logs .destroy .done)

/-! ## What the log says -/

def isConnect : Leaf → Bool
  | .connect _ => true
  | _ => false

/-- Connects that ran on the loop thread. -/
def State.connected (s : State) : Nat :=
  s.log.countP fun entry => isConnect entry.1 && decide (entry.2 ≠ .done)

/-- Connects that stop was requested for before they ran. -/
def State.cancelled (s : State) : Nat :=
  s.log.countP fun entry => isConnect entry.1 && decide (entry.2 = .done)

def State.closes (s : State) : Nat :=
  s.log.countP fun entry => decide (entry.1 = .close)

/-- An error that a sender signalled is the signal of the pipeline. -/
def Faithful (signal : Signal Result Exception) (s : State) : Prop :=
  ∀ l x, (l, .error x) ∈ s.log → signal = .error x

section Log

variable {s : State} {l : Leaf} {signal signal' : Signal Result Exception}

/-- What the log counts of a sender that is neither a Connect nor a Close. -/
theorem logs_counts (other : isConnect l = false) (open_ : l ≠ .close) :
    (s.logs l signal).connected = s.connected ∧ (s.logs l signal).cancelled = s.cancelled ∧
      (s.logs l signal).closes = s.closes := by
  simp [State.connected, State.cancelled, State.closes, State.logs, other, open_]

/-- As long as nothing failed, the next signal is faithful. -/
theorem Faithful.logs {v : Result} (faithful : Faithful (.value v) s) :
    Faithful signal (s.logs l signal) := by
  intro l' x member
  rcases List.mem_append.mp member with old | new
  · cases faithful l' x old
  · exact (Prod.mk.inj (List.mem_singleton.mp new)).2.symm

/-- A value of a later sender leaves the signal as it is. -/
theorem Faithful.logs_value {v : Result} (faithful : Faithful signal s) :
    Faithful signal (s.logs l (.value v)) := by
  intro l' x member
  rcases List.mem_append.mp member with old | new
  · exact faithful l' x old
  · cases (Prod.mk.inj (List.mem_singleton.mp new)).2

end Log

/-! ## The states of a session -/

/-- Before the Connect. -/
structure Constructed (s : State) : Prop where
  socket : s.socket = some .construct
  terminated : s.terminated = false
  connected : s.connected = 0
  cancelled : s.cancelled = 0
  closes : s.closes = 0

/-- A handle that the loop has initialised, with nothing queued. -/
structure Ready (socket : Socket) : Prop where
  truthful : Truthful socket
  phase : socket.phase = .active ∨ socket.phase = .refused
  sent : socket.writeQueueSize = 0
  shutdowns : socket.shutdowns = 0

structure Opened (signal : Signal Result Exception) (s : State) : Prop where
  socket : ∃ socket, s.socket = some socket ∧ Ready socket
  terminated : s.terminated = false
  connected : s.connected = 1
  cancelled : s.cancelled = 0
  closes : s.closes = 0
  faithful : Faithful signal s
  signal : signal ≠ .done

/-- The one Close has completed. -/
structure Closed (signal : Signal Result Exception) (s : State) : Prop where
  socket : ∃ socket, s.socket = some socket ∧ uvIsClosing socket.flags = true
  terminated : s.terminated = false
  connected : s.connected = 1
  cancelled : s.cancelled = 0
  closes : s.closes = 1
  faithful : Faithful signal s

/-- The Connect never ran. -/
structure Cancelled (s : State) : Prop where
  socket : s.socket = some .construct
  terminated : s.terminated = false
  connected : s.connected = 0
  cancelled : s.cancelled = 1
  closes : s.closes = 0
  faithful : Faithful .done s

theorem Ready.served {socket : Socket} (ready : Ready socket) (others : Flags) :
    Ready (served socket others) where
  truthful := (SocketLifetime.uvIsClosing_traffic _ _).trans ready.truthful
  phase := ready.phase
  sent := rfl
  shutdowns := ready.shutdowns

theorem Ready.looksOpen {socket : Socket} (ready : Ready socket) :
    uvIsClosing socket.flags = false := by
  rw [ready.truthful]
  rcases ready.phase with active | refused
  · rw [active]
    rfl
  · rw [refused]
    rfl

/-- A Close of such a handle calls `uv_close`, and asks for no shutdown. -/
theorem Ready.startClose {socket : Socket} (ready : Ready socket) (accepted : Bool) :
    ∃ closing, socket.startClose accepted = some closing ∧ closing.phase = .closing ∧
      closing.shutdowns = 0 := by
  have sent : ¬ (SocketLifetime.uvIsWritable socket.flags = true ∧ 0 < socket.writeQueueSize) := by
    rw [ready.sent]
    exact fun unsent => Nat.lt_irrefl 0 unsent.2
  have used : socket.phase ≠ .fresh := by
    rcases ready.phase with active | refused
    · simp [active]
    · simp [refused]
  rw [Socket.startClose, if_neg sent, Socket.closeUnlessClosing, if_pos ready.looksOpen,
    Socket.uvClose, if_neg used]
  exact ⟨_, rfl, rfl, ready.shutdowns⟩

/-- What holds when `glb_snd` has completed. -/
def Settled (signal : Signal Result Exception) (s : State) : Prop :=
  (s.terminated = true ↔ s.cancelled ≠ 0) ∧ (s.terminated = false → s.socket = none) ∧
    s.closes = s.connected ∧ s.connected ≤ 1 ∧ Faithful signal s

section Senders

variable {s s' : State} {v : Result} {l : Leaf} {signal signal' : Signal Result Exception}

/-- A sender that only serves reads and writes. -/
theorem Opened.serve {socket : Socket} {others : Flags} (opened : Opened (.value v) s)
    (live : s.socket = some socket) (other : isConnect l = false) (open_ : l ≠ .close)
    (completed : signal ≠ .done) :
    Opened signal ({ s with socket := some (served socket others) }.logs l signal) := by
  obtain ⟨_, live', ready⟩ := opened.socket
  obtain rfl := Option.some.inj (live.symm.trans live')
  obtain ⟨connected, cancelled, closes⟩ := @logs_counts
    { s with socket := some (served socket others) } l signal other open_
  exact ⟨⟨_, rfl, ready.served others⟩, opened.terminated, connected.trans opened.connected,
    cancelled.trans opened.cancelled, closes.trans opened.closes, opened.faithful.logs, completed⟩

theorem completes_ne_done (completion : Completion) : completes completion ≠ .done :=
  completion.signal_ne_done

theorem write_opened (opened : Opened (.value v) s) : wp Perform (.leaf .write) Opened s := by
  intro signal s' ran
  cases ran with
  | write others report live => exact opened.serve live rfl (by simp) (completes_ne_done _)

theorem read_opened (opened : Opened (.value v) s) : wp Perform (.leaf .read) Opened s := by
  intro signal s' ran
  cases ran with
  | read others report live => exact opened.serve live rfl (by simp) (completes_ne_done _)

theorem resize_opened (opened : Opened (.value v) s) : wp Perform (.leaf .resize) Opened s := by
  have kept : ∀ signal : Signal Result Exception, signal ≠ .done →
      Opened signal (s.logs .resize signal) := by
    intro signal completed
    obtain ⟨connected, cancelled, closes⟩ := @logs_counts s .resize signal rfl (by simp)
    exact ⟨opened.socket, opened.terminated, connected.trans opened.connected,
      cancelled.trans opened.cancelled, closes.trans opened.closes, opened.faithful.logs, completed⟩
  intro signal s' ran
  cases ran with
  | resized => exact kept _ (by simp)
  | refused => exact kept _ (by simp)

/-- A Connect initialises the handle, or finds that it was cancelled. -/
theorem connect_opened {ip : Ip} (constructed : Constructed s) (clean : Faithful (.value v) s) :
    wp Perform (.leaf (.connect ip))
      (fun signal s' => Opened signal s' ∨ signal = .done ∧ Cancelled s') s := by
  intro signal s' ran
  cases ran with
  | cancelled ip live =>
      right
      refine ⟨rfl, constructed.socket, constructed.terminated, ?_, ?_, ?_, clean.logs⟩
      · simpa [State.connected, State.logs, isConnect] using constructed.connected
      · simpa [State.cancelled, State.logs, isConnect] using constructed.cancelled
      · simpa [State.closes, State.logs] using constructed.closes
  | @connect _ socket made ip created others report live initialised =>
      left
      have completed := completes_ne_done (Operation.tcpConnectOp.callback report)
      obtain rfl := Option.some.inj (live.symm.trans constructed.socket)
      have ready : Ready made := by
        have truthful : Truthful made :=
          SocketLifetime.act_truthful (a := .continueConnect 0 created)
            (show Truthful { Socket.construct with connects := 1 } by
              show uvIsClosing 0#32 = false
              decide) initialised
        simp only [Socket.continueConnect, Option.ite_none_right_eq_some, Option.some.injEq]
          at initialised
        obtain ⟨-, rfl⟩ := initialised
        refine ⟨truthful, ?_, rfl, rfl⟩
        cases created <;> simp
      refine ⟨⟨_, rfl, ready.served others⟩, constructed.terminated, ?_, ?_, ?_, clean.logs,
        completed⟩
      · simpa [State.connected, State.logs, isConnect, completed] using constructed.connected
      · simpa [State.cancelled, State.logs, isConnect, completed] using constructed.cancelled
      · simpa [State.closes, State.logs] using constructed.closes

/-- A Close of an open handle completes with a value, and leaves it closed. -/
theorem close_closed (opened : Opened signal s) :
    wp Perform (.leaf .close)
      (fun signal' s' => signal' = .value (.value .unit) ∧ Closed signal s') s := by
  obtain ⟨socket, live, ready⟩ := opened.socket
  intro signal' s' ran
  cases ran with
  | @closed _ socket' closing after accepted live' started called =>
      obtain rfl := Option.some.inj (live.symm.trans live')
      have truthful : Truthful after := by
        have first : Truthful closing :=
          SocketLifetime.act_truthful (a := .startClose 0 accepted) ready.truthful started
        exact SocketLifetime.act_truthful (a := .closeCallback 0) first called
      have phase : after.phase = .closed := by
        simp only [Socket.closeCallback, Option.ite_none_right_eq_some, Option.some.injEq] at called
        obtain ⟨-, rfl⟩ := called
        rfl
      refine ⟨rfl, ⟨after, rfl, ?_⟩, opened.terminated, ?_, ?_, ?_, opened.faithful.logs_value⟩
      · rw [truthful, phase]
        rfl
      · simpa [State.connected, State.logs, isConnect] using opened.connected
      · simpa [State.cancelled, State.logs, isConnect] using opened.cancelled
      · simpa [State.closes, State.logs] using opened.closes
  | @closedAlready _ socket' accepted live' closing started =>
      obtain rfl := Option.some.inj (live.symm.trans live')
      cases ready.looksOpen.symm.trans closing
  | @shutDown _ socket' asked closing after live' started drained called =>
      obtain rfl := Option.some.inj (live.symm.trans live')
      obtain ⟨_, started', -, none_⟩ := ready.startClose true
      obtain rfl := Option.some.inj (started.symm.trans started')
      simp [Socket.shutdownCallback, none_] at drained
  | @notShutDown _ socket' asked status failed live' started pending =>
      obtain rfl := Option.some.inj (live.symm.trans live')
      obtain ⟨_, started', -, none_⟩ := ready.startClose true
      obtain rfl := Option.some.inj (started.symm.trans started')
      rw [none_] at pending
      cases pending
  | aborted accepted live' started =>
      obtain rfl := Option.some.inj (live.symm.trans live')
      obtain ⟨_, started', -⟩ := ready.startClose accepted
      cases started.symm.trans started'

/-- The end of the socket: the destructor terminates for one that was never connected. -/
theorem destroy_spec (ended : Closed signal s ∨ signal = .done ∧ Cancelled s) :
    wp Perform (.leaf .destroy) (fun _ => Settled signal) s := by
  intro signal' s' ran
  have looks : ∀ socket, s.socket = some socket → (socket.Terminates ↔ s.cancelled ≠ 0) := by
    intro socket live
    rcases ended with closed | ⟨-, cancelled⟩
    · obtain ⟨_, live', closing⟩ := closed.socket
      obtain rfl := Option.some.inj (live.symm.trans live')
      simp [Socket.Terminates, closing, closed.cancelled]
    · obtain rfl := Option.some.inj (live.symm.trans cancelled.socket)
      have zero : Socket.construct.Terminates := by
        show uvIsClosing 0#32 = false
        decide
      simp [zero, cancelled.cancelled]
  have counts : s.closes = s.connected ∧ s.connected ≤ 1 ∧ s.terminated = false ∧
      Faithful signal s := by
    rcases ended with closed | ⟨rfl, cancelled⟩
    · exact ⟨closed.closes.trans closed.connected.symm, Nat.le_of_eq closed.connected,
        closed.terminated, closed.faithful⟩
    · exact ⟨cancelled.closes.trans cancelled.connected.symm,
        Nat.le_trans (Nat.le_of_eq cancelled.connected) (Nat.zero_le _), cancelled.terminated,
        cancelled.faithful⟩
  obtain ⟨closes, atMost, running, faithful⟩ := counts
  have noError : ∀ signal' : Signal Result Exception, (∀ x, signal' ≠ .error x) →
      Faithful signal (s.logs .destroy signal') := by
    intro signal' value l x member
    rcases List.mem_append.mp member with old | new
    · exact faithful l x old
    · exact absurd (Prod.mk.inj (List.mem_singleton.mp new)).2.symm (value x)
  obtain ⟨connected', cancelled', closes'⟩ := @logs_counts s .destroy signal' rfl (by simp)
  cases ran with
  | @destroy _ socket live closing =>
      refine ⟨?_, fun _ => rfl, ?_, Nat.le_trans (Nat.le_of_eq connected') atMost,
        noError _ (by simp)⟩
      · show s.terminated = true ↔ (s.logs .destroy _).cancelled ≠ 0
        rw [cancelled', ← looks socket live, running]
        simp [closing]
      · exact closes'.trans (closes.trans connected'.symm)
  | @terminate _ socket live terminates =>
      refine ⟨?_, ?_, ?_, Nat.le_trans (Nat.le_of_eq connected') atMost, noError _ (by simp)⟩
      · show true = true ↔ (s.logs .destroy _).cancelled ≠ 0
        rw [cancelled', ← looks socket live]
        simp [terminates]
      · intro impossible
        cases impossible
      · exact closes'.trans (closes.trans connected'.symm)

end Senders

/-! ## The pipeline -/

/-- Before the first Close: the handle is open, or the Connect was cancelled. -/
def Middle (signal : Signal Result Exception) (s : State) : Prop :=
  Opened signal s ∨ signal = .done ∧ Cancelled s

/-- What `let_error` finds: a value of the Close, or an error of a sender before it. -/
def Handled : Signal Result Exception → State → Prop
  | .value v, s => Closed (.value v) s
  | .error x, s => Opened (.error x) s
  | .done, s => Cancelled s

/-- After the last Close. -/
def Ended (signal : Signal Result Exception) (s : State) : Prop :=
  Closed signal s ∨ signal = .done ∧ Cancelled s

section Pipelines

variable {s : State} {v : Result} {p : Pipeline Leaf Result Exception}

theorem Middle.opened (middle : Middle (.value v) s) : Opened (.value v) s := by
  rcases middle with opened | ⟨impossible, -⟩
  · exact opened
  · cases impossible

theorem Middle.cancelled (middle : Middle .done s) : Cancelled s := by
  rcases middle with opened | ⟨-, cancelled⟩
  · exact absurd rfl opened.signal
  · exact cancelled

/-- `let` in the middle of the session. -/
theorem andLet_middle {next : Result → Pipeline Leaf Result Exception}
    (first : wp Perform p Middle s)
    (later : ∀ v s', Opened (.value v) s' → wp Perform (next v) Middle s') :
    wp Perform (p.andLet next) Middle s :=
  wp_andLet first (fun v s' middle => later v s' middle.opened) (fun _ _ middle => middle)
    fun _ middle => middle

/-- So is a `then` that prints. -/
theorem andThen_middle (first : wp Perform p Middle s) :
    wp Perform (p.andThen print) Middle s := by
  refine wp_andThen first (fun v s' middle => .inl ?_) (fun _ _ middle => middle)
    fun _ middle => middle
  have opened := middle.opened
  refine ⟨opened.socket, opened.terminated, opened.connected, opened.cancelled, opened.closes,
    fun l x member => ?_, by simp [print]⟩
  cases opened.faithful l x member

theorem middle_of_opened (holds : wp Perform p Opened s) : wp Perform p Middle s :=
  wp_mono (fun _ _ opened => .inl opened) holds

/-- Whatever happens on the way, the session ends with its handle closed, or it was
cancelled before there was one. -/
theorem session_spec {ip : Ip} (constructed : Constructed s) (clean : Faithful (.value v) s) :
    wp Perform (session ip) Ended s := by
  refine wp_letError (R := Handled) ?first (fun v s' closed => .inl closed) ?error
    fun s' cancelled => .inr ⟨rfl, cancelled⟩
  case first =>
    refine wp_andLet (R := Middle) ?_ ?_ (fun x s' middle => ?_) fun s' middle => middle.cancelled
    · refine andLet_middle (andLet_middle (connect_opened constructed clean) ?_) ?_
      · intro v s' opened
        exact middle_of_opened (write_opened opened)
      · intro v s' opened
        refine andLet_middle (middle_of_opened (resize_opened opened)) fun v s' opened => ?_
        refine andThen_middle (andLet_middle ?_ fun v s' opened => ?_)
        · exact andThen_middle (middle_of_opened (read_opened opened))
        · exact middle_of_opened (read_opened opened)
    · intro v s' middle
      refine wp_mono ?_ (close_closed middle.opened)
      rintro signal s'' ⟨rfl, closed⟩
      refine ⟨closed.socket, closed.terminated, closed.connected, closed.cancelled,
        closed.closes, fun l x member => ?_⟩
      cases closed.faithful l x member
    · rcases middle with opened | ⟨impossible, -⟩
      · exact opened
      · cases impossible
  case error =>
    intro x s' opened
    refine wp_andThen (close_closed opened) ?_ ?_ ?_
    · rintro v s'' ⟨-, closed⟩
      exact .inl closed
    · rintro x s'' ⟨impossible, -⟩
      cases impossible
    · rintro s'' ⟨impossible, -⟩
      cases impossible

theorem glbSnd_spec : wp Perform glbSnd Settled init := by
  -- the lookup has done nothing to a socket
  have looked : wp Perform (.leaf .lookupIp)
      (fun signal s => s = init.logs .lookupIp signal) init := by
    intro signal s' ran
    cases ran with
    | lookupIp => rfl
  have quiet : ∀ signal : Signal Result Exception, Settled signal (init.logs .lookupIp signal) := by
    intro signal
    refine ⟨?_, fun _ => rfl, rfl, Nat.zero_le _, fun l x member => ?_⟩
    · simp [State.logs, init, State.cancelled, isConnect]
    · exact (Prod.mk.inj (List.mem_singleton.mp member)).2.symm
  refine wp_andLet looked ?value ?error ?done
  case value =>
    rintro v s rfl
    split
    · rename_i ip rest addresses
      have made : wp Perform (.leaf .construct)
          (fun signal s => ∃ v, signal = .value v ∧ Constructed s ∧ Faithful (.value v) s)
          (init.logs .lookupIp (.value v)) := by
        intro signal s' ran
        cases ran with
        | construct =>
            refine ⟨_, rfl, ⟨rfl, rfl, rfl, rfl, rfl⟩, fun l x member => ?_⟩
            simp [State.logs, init] at member
      refine wp_letValueWith (R := Ended) made ?_ ?_ ?_ fun signal s' ended => destroy_spec ended
      · rintro _ s' ⟨v, -, constructed, clean⟩
        exact session_spec constructed clean
      · rintro x s' ⟨v, impossible, -⟩
        cases impossible
      · rintro s' ⟨v, impossible, -⟩
        cases impossible
    · refine ⟨?_, fun _ => rfl, rfl, Nat.zero_le _, fun l x member => ?_⟩
      · simp [State.logs, init, State.cancelled, isConnect]
      · simp [State.logs, init] at member
  case error =>
    rintro x s rfl
    exact quiet _
  case done =>
    rintro s rfl
    exact quiet _

end Pipelines

/-- **The client closes its socket.**  In every execution that completes, the destructor
of the socket terminates exactly where the Connect was cancelled before it ran; in every
other the socket is gone, each Connect that ran was followed by one Close, and an error
that any sender signalled is the one that `main` catches. -/
theorem socket_closed_once_iff {signal : Signal Result Exception} {s : State}
    (executed : Exec Perform glbSnd init signal s) :
    (s.terminated = true ↔ s.cancelled ≠ 0) ∧ (s.terminated = false → s.socket = none) ∧
      s.closes = s.connected ∧ s.connected ≤ 1 ∧
      ∀ l x, (l, .error x) ∈ s.log → signal = .error x :=
  wp_iff.mp glbSnd_spec signal s executed

/-- The connection is refused, and the handler closes the socket. -/
theorem socket_closed_once_iff_refused :
    ∃ s, Exec Perform glbSnd init (completes (uvError (-111))) s ∧ s.terminated = false ∧
      s.connected = 1 ∧ s.closes = 1 ∧ s.socket = none := by
  have executed : ∃ s, Exec Perform glbSnd init (completes (uvError (-111))) s ∧
      s.cancelled = 0 ∧ s.connected = 1 := by
    apply Exists.intro
    apply And.intro
    · apply Exec.andLet (Exec.leaf (Perform.lookupIp _ (.value (.ips [ipv4 127 0 0 1]))))
      apply Exec.letValueWith (Perform.construct _)
      · apply Exec.letError
        · apply Exec.andLet_error
          apply Exec.andLet_error
          apply Exec.andLet_error
          exact Exec.leaf (Perform.connect _ true 0#32 ⟨-111, 0, 0⟩ rfl rfl)
        · exact Exec.andThen (Exec.leaf (Perform.closed true rfl rfl rfl))
      · exact Perform.destroy rfl (by decide)
    · decide
  obtain ⟨s, executed, none_, one⟩ := executed
  obtain ⟨terminated, gone, closes, -⟩ := socket_closed_once_iff executed
  have running : s.terminated = false := by simpa [none_] using terminated
  exact ⟨s, executed, running, one, closes.trans one, gone running⟩

end PatBase.Runtime.Client
