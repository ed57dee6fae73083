/-
# PatBase.Runtime.Threads -- which thread makes the calls into libuv

Libuv is not thread safe: the calls on a loop, and on the handles and requests of it,
are for the thread that runs the loop.  file.h, ip.h and the Connect of tcp_socket.h
start with the `schedule()` of their context, whose continuation runs there, and
`GetLoop` asserts it.  The Read, Write and Close of stream.h do not: they make their
call on whichever thread completed the step before them.

The senders of the API are pipelines over the primitive ones, as the source composes
them, and a program is a pipeline over the API.  `calls_on_loop_iff` says which
programs keep to the rule, by following where each step completes.
-/
import PatBase.Lib.Sender
import PatBase.Runtime.StreamHandle

namespace PatBase.Runtime.Threads

open PatBase.Lib.Machine PatBase.Lib.Sender

set_option autoImplicit false

/-! ## Threads and calls -/

/-- Contexts and sockets are numbered; this is the context of `GetIOContext()`. -/
def GetIOContext : Nat := 0

inductive Thread where
  /-- `thread_` of a context, which runs its loop. -/
  | loop (context : Nat)
  /-- A worker of `GetThreadPool()`. -/
  | pool (worker : Nat)
  | other (id : Nat)
  deriving DecidableEq, Repr

/-- The context on whose loop thread this is. -/
def Thread.context : Thread → Option Nat
  | .loop c => some c
  | .pool _ => none
  | .other _ => none

inductive Function where
  | getLoop
  | uvFsOpen
  | uvFsRead
  | uvFsWrite
  | uvFsClose
  | uvFsReqCleanup
  | uvGetaddrinfo
  | uvTcpInitEx
  | uvTcpConnect
  | uvReadStart
  | uvReadStop
  | uvWrite
  | uvShutdown
  | uvClose
  | uvIsWritable
  | uvIsClosing
  deriving DecidableEq, Repr

/-- The calls that hand work to the loop or take the loop itself; the others stop a
read or look at a handle. -/
def Function.Acts : Function → Prop
  | .uvReadStop => False
  | .uvIsWritable => False
  | .uvIsClosing => False
  | _ => True

structure Call where
  function : Function
  /-- Whose loop, handle or request it is about; a handle may have no loop yet. -/
  context : Option Nat
  thread : Thread
  deriving DecidableEq, Repr

/-- Of `GetLoop`, this is its assertion. -/
def Call.OnLoop (call : Call) : Prop :=
  ∀ c, call.context = some c → call.thread = .loop c

structure State where
  /-- Where the next step starts. -/
  thread : Thread
  /-- `handle_.loop` of each socket. -/
  home : Nat → Option Nat

/-- What a call is about. -/
inductive Target where
  | loop (context : Nat)
  | socket (socket : Nat)
  deriving DecidableEq, Repr

def State.contextOf (s : State) : Target → Option Nat
  | .loop c => some c
  | .socket sock => s.home sock

def State.calls (s : State) (target : Target) (functions : List Function) : List Call :=
  functions.map fun function => ⟨function, s.contextOf target, s.thread⟩

def State.on (s : State) (thread : Thread) : State :=
  { s with thread }

/-! ## The primitive senders -/

inductive Prim where
  /-- `get_scheduler().schedule()` of a context. -/
  | schedule (context : Nat)
  /-- `unifex::schedule` of the thread pool. -/
  | schedulePool
  /-- Calls that complete at once.  A failed assertion of `GetLoop` does not stop it here,
  as in a build without assertions. -/
  | inline (functions : List Function) (target : Target)
  /-- `uv_tcp_init_ex` in the continuation of Connect. -/
  | init (context socket : Nat)
  /-- The `start()` of an operation: its calls, those its callback may make, and what
  they are about. -/
  | start (functions : List Function) (callbacks : List (List Function)) (target : Target)
  deriving DecidableEq, Repr

/-- A callback, like a scheduled task, runs on the loop thread of its context, and
what it completes continues there. -/
inductive Perform {V : Type} : Prim → State → List Call → Outcome V State → Prop where
  | scheduled {c : Nat} {s : State} {out : Outcome V State} :
      out.Signals (s.on (.loop c)) → Perform (.schedule c) s [] out
  | notScheduled {c : Nat} {s : State} : Perform (.schedule c) s [] .pending
  | pooled {s : State} (worker : Nat) {out : Outcome V State} :
      out.Signals (s.on (.pool worker)) → Perform .schedulePool s [] out
  | notPooled {s : State} : Perform .schedulePool s [] .pending
  | inline {functions : List Function} {target : Target} {s : State} (v : V) :
      Perform (.inline functions target) s (s.calls target functions) (.value v s)
  | init {c sock : Nat} {s : State} (v : V) :
      Perform (.init c sock) s (s.calls (.loop c) [.uvTcpInitEx])
        (.value v { s with home := Function.update s.home sock (some c) })
  | calledBack {functions callback : List Function} {callbacks : List (List Function)}
      {target : Target} {s : State} {c : Nat} {out : Outcome V State} :
      s.contextOf target = some c → callback ∈ callbacks → out.Signals (s.on (.loop c)) →
        Perform (.start functions callbacks target) s
          (s.calls target functions ++ (s.on (.loop c)).calls target callback) out
  /-- The call was refused, or has yet to call back. -/
  | notCalledBack {functions : List Function} {callbacks : List (List Function)}
      {target : Target} {s : State} :
      Perform (.start functions callbacks target) s (s.calls target functions) .pending

/-! ## The senders of the API -/

section Senders

variable {V : Type}

/-- `context.get_scheduler().schedule().let(...)` with a continuation that calls
`context.GetLoop()` before `rest`. -/
def hop (c : Nat) (rest : Pipeline Prim V) : Pipeline Prim V :=
  .andLet (.leaf (.schedule c)) fun _ =>
    .andLet (.leaf (.inline [.getLoop] (.loop c))) fun _ => rest

/-- The four of file.h, of which `function` is the call that `start()` makes. -/
def fileSender (function : Function) (c : Nat) : Pipeline Prim V :=
  hop c (.leaf (.start [function] [[.uvFsReqCleanup]] (.loop c)))

/-- `File::Open` -/
def File.Open (c : Nat) : Pipeline Prim V := fileSender .uvFsOpen c

/-- `File::Read` -/
def File.Read (c : Nat) : Pipeline Prim V := fileSender .uvFsRead c

/-- `File::Write` -/
def File.Write (c : Nat) : Pipeline Prim V := fileSender .uvFsWrite c

/-- `File::Close` -/
def File.Close (c : Nat) : Pipeline Prim V := fileSender .uvFsClose c

/-- The addresses are read from the list, and the list freed, on the thread pool. -/
def LookupIp : Pipeline Prim V :=
  .andLet (hop GetIOContext (.leaf (.start [.uvGetaddrinfo] [[]] (.loop GetIOContext))))
    fun _ => .andThen (.leaf .schedulePool) id

/-- `TCPSocket::Connect` -/
def TCPSocket.Connect (c sock : Nat) : Pipeline Prim V :=
  hop c (.andLet (.leaf (.init c sock)) fun _ =>
    .leaf (.start [.uvTcpConnect] [[]] (.socket sock)))

/-- `Stream::Read` -/
def Stream.Read (sock : Nat) : Pipeline Prim V :=
  .leaf (.start [.uvReadStart] [[.uvReadStop]] (.socket sock))

/-- `Stream::Write` -/
def Stream.Write (sock : Nat) : Pipeline Prim V :=
  .leaf (.start [.uvWrite] [[]] (.socket sock))

/-- `Stream::Close`, on the handle as `start()` finds it; `_stream_close::_op::start`
looks at it, and may find nothing to call. -/
def Stream.Close (sock : Nat) (handle : StreamHandle.Handle) : Pipeline Prim V :=
  if handle.writable = true ∧ 0 < handle.writeQueueSize then
    .leaf (.start [.uvIsWritable, .uvShutdown] [[.uvIsClosing], [.uvIsClosing, .uvClose]]
      (.socket sock))
  else if handle.phase = .active then
    .leaf (.start [.uvIsWritable, .uvIsClosing, .uvClose] [[]] (.socket sock))
  else
    .leaf (.inline [.uvIsWritable, .uvIsClosing] (.socket sock))

end Senders

inductive Api where
  | schedule (context : Nat)
  | fileOpen (context : Nat)
  | fileRead (context : Nat)
  | fileWrite (context : Nat)
  | fileClose (context : Nat)
  | lookupIp
  | connect (context socket : Nat)
  | read (socket : Nat)
  | write (socket : Nat)
  | close (socket : Nat)
  deriving DecidableEq, Repr

namespace Api

/-- `handle` is the handle of the socket, if there is one, as the sender is started. -/
def sender {V : Type} (handle : StreamHandle.Handle) : Api → Pipeline Prim V
  | .schedule c => .leaf (.schedule c)
  | .fileOpen c => File.Open c
  | .fileRead c => File.Read c
  | .fileWrite c => File.Write c
  | .fileClose c => File.Close c
  | .lookupIp => LookupIp
  | .connect c sock => TCPSocket.Connect c sock
  | .read sock => Stream.Read sock
  | .write sock => Stream.Write sock
  | .close sock => Stream.Close sock handle

/-- The socket of a Stream operation. -/
def socket : Api → Option Nat
  | .read sock => some sock
  | .write sock => some sock
  | .close sock => some sock
  | _ => none

end Api

/-- A step of a program, with the calls it made. -/
structure Step where
  api : Api
  handle : StreamHandle.Handle
  calls : List Call
  deriving DecidableEq, Repr

/-- Starting a sender of the API is one step. -/
inductive Runs {V : Type} : Api → State → List Step → Outcome V State → Prop where
  | step {api : Api} (handle : StreamHandle.Handle) {s : State} {calls : List Call}
      {out : Outcome V State} :
      Exec Perform (api.sender handle) s calls out → Runs api s [⟨api, handle, calls⟩] out

/-! ## Where steps complete -/

/-- The context on whose loop thread the program is, if on any, and the contexts of
its sockets. -/
structure Position where
  context : Option Nat
  home : Nat → Option Nat

def State.position (s : State) : Position where
  context := s.thread.context
  home := s.home

/-- A handle on which Close finds nothing to shut down or close. -/
def Settled (handle : StreamHandle.Handle) : Prop :=
  ¬ (handle.writable = true ∧ 0 < handle.writeQueueSize) ∧ handle.phase ≠ .active

instance (handle : StreamHandle.Handle) : Decidable (Settled handle) :=
  inferInstanceAs (Decidable (_ ∧ _))

/-- `start()` of a Close completes it there and then on a settled handle, on no other. -/
theorem startClose_completes_iff (s : StreamHandle.State) (op : Nat) (rc : Int) :
    (StreamHandle.startClose s op rc).signals (.close op) ≠ s.signals (.close op) ↔
      Settled s.handle := by
  obtain ⟨unsent, -, started⟩ | ⟨unsent, -, started⟩ | ⟨-, active, started⟩ |
    ⟨sent, closing, started⟩ := StreamHandle.startClose_cases s op rc
  · rw [started]
    exact iff_of_false (fun changed => changed rfl) fun settled => settled.1 unsent
  · rw [started]
    exact iff_of_false (fun changed => changed rfl) fun settled => settled.1 unsent
  · rw [started]
    exact iff_of_false (fun changed => changed rfl) fun settled => settled.2 active
  · rw [started, StreamHandle.signal_signals_self]
    refine iff_of_true (fun same => ?_) ⟨sent, closing⟩
    exact absurd (congrArg List.length same) (by simp [StreamHandle.takeSlot])

namespace Position

/-- Where the program is once a step completed with a value. -/
def after (pos : Position) (handle : StreamHandle.Handle) : Api → Position
  | .schedule c => { pos with context := some c }
  | .fileOpen c => { pos with context := some c }
  | .fileRead c => { pos with context := some c }
  | .fileWrite c => { pos with context := some c }
  | .fileClose c => { pos with context := some c }
  | .lookupIp => { pos with context := none }
  | .connect c sock => { context := some c, home := Function.update pos.home sock (some c) }
  | .read sock => { pos with context := pos.home sock }
  | .write sock => { pos with context := pos.home sock }
  | .close sock =>
      if Settled handle then pos else { pos with context := pos.home sock }

/-- A Stream operation starts on the loop thread of its socket. -/
def AtHome (pos : Position) (api : Api) : Prop :=
  ∀ sock, api.socket = some sock → ∀ c, pos.home sock = some c → pos.context = some c

/-- The machine whose actions are the steps of a program. -/
def advance (pos : Position) (o : Step) : Option Position :=
  some (pos.after o.handle o.api)

end Position

/-! ## The calls of one sender -/

section Calls

variable {s s' : State} {target : Target} {functions : List Function} {c : Nat}

/-- To be on the loop thread of a context is to be where its position says. -/
theorem thread_eq_loop (thread : Thread) : thread = .loop c ↔ thread.context = some c := by
  cases thread <;> simp [Thread.context]

/-- Calls are on the loop if they, or the ones looked at, are started on it. -/
theorem calls_onLoop_iff {P : Function → Prop} :
    (∀ call ∈ s.calls target functions, P call.function → call.OnLoop) ↔
      ((∃ function ∈ functions, P function) →
        ∀ c, s.contextOf target = some c → s.position.context = some c) := by
  constructor
  · rintro onLoop ⟨function, called, looked⟩ c context
    have made : ⟨function, s.contextOf target, s.thread⟩ ∈ s.calls target functions :=
      List.mem_map.mpr ⟨function, called, rfl⟩
    exact (thread_eq_loop s.thread).mp (onLoop _ made looked c context)
  · intro started call made looked c context
    obtain ⟨function, called, rfl⟩ := List.mem_map.mp made
    exact (thread_eq_loop s.thread).mpr (started ⟨function, called, looked⟩ c context)

theorem calls_onLoop
    (started : ∀ c, s.contextOf target = some c → s.position.context = some c) :
    ∀ call ∈ s.calls target functions, call.OnLoop := by
  intro call made
  exact calls_onLoop_iff (P := fun _ => True).mpr (fun _ => started) call made trivial

/-- The calls of a callback are made on the loop thread. -/
theorem callback_onLoop (context : s.contextOf target = some c) :
    ∀ call ∈ (s.on (.loop c)).calls target functions, call.OnLoop := by
  apply calls_onLoop
  intro c' context'
  have same : s.contextOf target = some c' := by
    cases target <;> exact context'
  exact context.symm.trans same

end Calls

/-! ## The senders that hop -/

section Hop

variable {V : Type} {c sock : Nat} {h : Nat → Option Nat} {rest : Pipeline Prim V}
  {post : State → Prop}

/-- On the loop thread of `c`, with the sockets at `h`. -/
def At (c : Nat) (h : Nat → Option Nat) (s : State) : Prop :=
  s.position = ⟨some c, h⟩

theorem at_on {s : State} (home : s.home = h) : At c h (s.on (.loop c)) := by
  simp [At, State.position, State.on, Thread.context, home]

theorem At.home {s : State} (here : At c h s) : s.home = h :=
  congrArg Position.home here

theorem At.context {s : State} (here : At c h s) : s.thread.context = some c :=
  congrArg Position.context here

theorem schedule_ensures :
    Ensures Perform Call.OnLoop (fun s => s.home = h) (.leaf (.schedule c) : Pipeline Prim V)
      (At c h) := by
  apply Ensures.leaf
  intro s es out home performed
  cases performed with
  | scheduled signals =>
      refine ⟨by simp, fun s' reached => ?_⟩
      obtain rfl := signals.next_eq reached
      exact at_on home
  | notScheduled => exact ⟨by simp, by simp [Outcome.next]⟩

theorem inline_ensures {functions : List Function} :
    Ensures Perform Call.OnLoop (At c h) (.leaf (.inline functions (.loop c)) : Pipeline Prim V)
      (At c h) := by
  apply Ensures.leaf
  intro s es out here performed
  cases performed with
  | inline v =>
      refine ⟨calls_onLoop fun c' context => ?_, fun s' reached => ?_⟩
      · obtain rfl := Option.some.inj context
        exact here.context
      · obtain rfl := Option.some.inj reached
        exact here

theorem init_ensures :
    Ensures Perform Call.OnLoop (At c h) (.leaf (.init c sock) : Pipeline Prim V)
      (At c (Function.update h sock (some c))) := by
  apply Ensures.leaf
  intro s es out here performed
  cases performed with
  | init v =>
      refine ⟨calls_onLoop fun c' context => ?_, fun s' reached => ?_⟩
      · obtain rfl := Option.some.inj context
        exact here.context
      · obtain rfl := Option.some.inj reached
        simp [At, State.position, here.home, here.context]

theorem start_ensures {functions : List Function} {callbacks : List (List Function)}
    {target : Target} (about : ∀ s, At c h s → s.contextOf target = some c) :
    Ensures Perform Call.OnLoop (At c h)
      (.leaf (.start functions callbacks target) : Pipeline Prim V) (At c h) := by
  apply Ensures.leaf
  intro s es out here performed
  have onLoop : ∀ call ∈ s.calls target functions, call.OnLoop := by
    apply calls_onLoop
    intro c' context
    obtain rfl := Option.some.inj ((about s here).symm.trans context)
    exact here.context
  cases performed with
  | calledBack context called signals =>
      obtain rfl := Option.some.inj ((about s here).symm.trans context)
      refine ⟨List.forall_mem_append.mpr ⟨onLoop, callback_onLoop context⟩, fun s' reached => ?_⟩
      obtain rfl := signals.next_eq reached
      exact at_on here.home
  | notCalledBack => exact ⟨onLoop, by simp [Outcome.next]⟩

theorem schedulePool_ensures :
    Ensures Perform Call.OnLoop (At c h) (.leaf .schedulePool : Pipeline Prim V)
      (fun s => s.position = ⟨none, h⟩) := by
  apply Ensures.leaf
  intro s es out here performed
  cases performed with
  | pooled worker signals =>
      refine ⟨by simp, fun s' reached => ?_⟩
      obtain rfl := signals.next_eq reached
      simp [State.position, State.on, Thread.context, here.home]
  | notPooled => exact ⟨by simp, by simp [Outcome.next]⟩

theorem hop_ensures (ensured : Ensures Perform Call.OnLoop (At c h) rest post) :
    Ensures Perform Call.OnLoop (fun s => s.home = h) (hop c rest) post :=
  schedule_ensures.andLet fun _ => inline_ensures.andLet fun _ => ensured

theorem fileSender_ensures (function : Function) :
    Ensures Perform Call.OnLoop (fun s => s.home = h) (fileSender function c : Pipeline Prim V)
      (At c h) :=
  hop_ensures (start_ensures fun _ _ => rfl)

theorem connect_ensures :
    Ensures Perform Call.OnLoop (fun s => s.home = h) (TCPSocket.Connect c sock : Pipeline Prim V)
      (At c (Function.update h sock (some c))) := by
  refine hop_ensures (init_ensures.andLet fun _ => start_ensures fun s here => ?_)
  simp [State.contextOf, here.home]

theorem lookupIp_ensures :
    Ensures Perform Call.OnLoop (fun s => s.home = h) (LookupIp : Pipeline Prim V)
      (fun s => s.position = ⟨none, h⟩) := by
  have lookup : Ensures Perform Call.OnLoop (fun s => s.home = h)
      (hop GetIOContext (.leaf (.start [.uvGetaddrinfo] [[]] (.loop GetIOContext))) :
        Pipeline Prim V) (At GetIOContext h) :=
    hop_ensures (start_ensures fun _ _ => rfl)
  exact lookup.andLet fun _ => schedulePool_ensures.andThen

/-- **All but the Stream operations keep to the loop thread**, from wherever they are
started: their calls, and the assertion of `GetLoop` among them. -/
theorem hops_onLoop {api : Api} (handle : StreamHandle.Handle) (hops : api.socket = none)
    (pos : Position) :
    Ensures Perform Call.OnLoop (fun s => s.position = pos)
      (api.sender handle : Pipeline Prim V) (fun s => s.position = pos.after handle api) := by
  intro s es out here
  have home : s.home = pos.home := congrArg Position.home here
  cases api with
  | schedule c => exact schedule_ensures s es out home
  | fileOpen c => exact fileSender_ensures .uvFsOpen s es out home
  | fileRead c => exact fileSender_ensures .uvFsRead s es out home
  | fileWrite c => exact fileSender_ensures .uvFsWrite s es out home
  | fileClose c => exact fileSender_ensures .uvFsClose s es out home
  | lookupIp => exact lookupIp_ensures s es out home
  | connect c sock => exact connect_ensures s es out home
  | read _ | write _ | close _ => cases hops

end Hop

/-! ## The Stream operations -/

section Stream

variable {V : Type} {s s' : State} {sock : Nat} {calls : List Call} {out : Outcome V State}
  {api : Api} {handle : StreamHandle.Handle}

/-- What a Stream operation does: some calls where it is started, and the rest, of its
callbacks, on the loop thread. -/
structure Started (s : State) (sock : Nat) (acts : Prop) (calls : List Call) where
  functions : List Function
  rest : List Call
  calls_eq : calls = s.calls (.socket sock) functions ++ rest
  rest_onLoop : ∀ call ∈ rest, call.OnLoop
  calls_something : functions ≠ []
  acts_iff : (∃ function ∈ functions, function.Acts) ↔ acts

theorem start_started {functions : List Function} {callbacks : List (List Function)} {acts : Prop}
    (calls_something : functions ≠ [])
    (acts_iff : (∃ function ∈ functions, function.Acts) ↔ acts)
    (executed : Exec Perform (.leaf (.start functions callbacks (.socket sock))) s calls out) :
    Nonempty (Started s sock acts calls) ∧
      ∀ s', out.next = some s' → s'.position = { s.position with context := s.home sock } := by
  cases executed with
  | leaf performed =>
      cases performed with
      | calledBack context called signals =>
          refine ⟨⟨functions, _, rfl, callback_onLoop context, calls_something, acts_iff⟩, ?_⟩
          intro s' reached
          obtain rfl := signals.next_eq reached
          have home : s.home sock = some _ := context
          simp [State.position, State.on, Thread.context, home]
      | notCalledBack =>
          refine ⟨⟨functions, [], (List.append_nil _).symm, by simp, calls_something, acts_iff⟩, ?_⟩
          simp [Outcome.next]

theorem stream_started (isStream : api.socket = some sock)
    (executed : Exec Perform (api.sender handle) s calls out) :
    Nonempty (Started s sock (¬ ((∃ sock, api = .close sock) ∧ Settled handle)) calls) ∧
      ∀ s', out.next = some s' → s'.position = s.position.after handle api := by
  cases api with
  | read sock' =>
      obtain rfl := Option.some.inj isStream
      exact start_started (by simp) (by simp [Function.Acts]) executed
  | write sock' =>
      obtain rfl := Option.some.inj isStream
      exact start_started (by simp) (by simp [Function.Acts]) executed
  | close sock' =>
      obtain rfl := Option.some.inj isStream
      simp only [Api.sender, Stream.Close] at executed
      split at executed
      case isTrue queued =>
        have unsettled : ¬ Settled handle := fun settled => settled.1 queued
        simp only [Position.after, if_neg unsettled]
        exact start_started (by simp) (by simp [Function.Acts, unsettled]) executed
      case isFalse drained =>
        split at executed
        case isTrue active =>
          have unsettled : ¬ Settled handle := fun settled => settled.2 active
          simp only [Position.after, if_neg unsettled]
          exact start_started (by simp) (by simp [Function.Acts, unsettled]) executed
        case isFalse inactive =>
          have settled : Settled handle := ⟨drained, inactive⟩
          simp only [Position.after, if_pos settled]
          cases executed with
          | leaf performed =>
              cases performed with
              | inline v =>
                  refine ⟨⟨_, [], (List.append_nil _).symm, by simp, by simp,
                    by simp [Function.Acts, settled]⟩, ?_⟩
                  intro s' reached
                  exact congrArg State.position (Option.some.inj reached).symm
  | schedule _ | fileOpen _ | fileRead _ | fileWrite _ | fileClose _ | lookupIp | connect _ _ =>
      cases isStream

end Stream

/-! ## Programs -/

section Programs

variable {V : Type} {p : Pipeline Api V} {api : Api} {handle : StreamHandle.Handle} {s : State}
  {calls : List Call} {steps : List Step} {out : Outcome V State}

/-- Every call into libuv is made on the loop thread of what it is about. -/
def Step.OnLoop (o : Step) : Prop :=
  ∀ call ∈ o.calls, call.OnLoop

/-- The calls that act are. -/
def Step.ActsOnLoop (o : Step) : Prop :=
  ∀ call ∈ o.calls, call.function.Acts → call.OnLoop

/-- A Close that finds nothing to shut down or close. -/
def Step.Idle (o : Step) : Prop :=
  (∃ sock, o.api = .close sock) ∧ Settled o.handle

theorem sender_position (executed : Exec Perform (api.sender handle) s calls out) :
    ∀ s', out.next = some s' → s'.position = s.position.after handle api := by
  cases isStream : api.socket with
  | none => exact (hops_onLoop handle isStream s.position s _ _ rfl executed).2
  | some sock => exact (stream_started isStream executed).2

theorem atHome_hop (pos : Position) (hops : api.socket = none) : pos.AtHome api := by
  intro sock isStream
  rw [hops] at isStream
  cases isStream

theorem atHome_stream {pos : Position} {sock : Nat} (isStream : api.socket = some sock) :
    pos.AtHome api ↔ ∀ c, pos.home sock = some c → pos.context = some c := by
  simp [Position.AtHome, isStream]

/-- Of the calls that satisfy `P`, those of the callbacks are on the loop; those made
where the operation starts are if it starts at home. -/
theorem Started.onLoop_iff {P : Function → Prop} {sock : Nat} {acts : Prop}
    (started : Started s sock acts calls) (isStream : api.socket = some sock) :
    (∀ call ∈ calls, P call.function → call.OnLoop) ↔
      ((∃ function ∈ started.functions, P function) → s.position.AtHome api) := by
  conv_lhs => rw [started.calls_eq, List.forall_mem_append, calls_onLoop_iff]
  rw [atHome_stream isStream]
  exact and_iff_left fun call made _ => started.rest_onLoop call made

theorem sender_onLoop_iff (executed : Exec Perform (api.sender handle) s calls out) :
    (∀ call ∈ calls, call.OnLoop) ↔ s.position.AtHome api := by
  cases isStream : api.socket with
  | none =>
      have onLoop := (hops_onLoop handle isStream s.position s _ _ rfl executed).1
      exact iff_of_true onLoop (atHome_hop _ isStream)
  | some sock =>
      obtain ⟨⟨started⟩, -⟩ := stream_started isStream executed
      obtain ⟨function, called⟩ := List.exists_mem_of_ne_nil _ started.calls_something
      have looked := started.onLoop_iff (P := fun _ => True) isStream
      constructor
      · intro onLoop
        exact looked.mp (fun call made _ => onLoop call made) ⟨function, called, trivial⟩
      · intro atHome call made
        exact looked.mpr (fun _ => atHome) call made trivial

theorem sender_actsOnLoop_iff (executed : Exec Perform (api.sender handle) s calls out) :
    (∀ call ∈ calls, call.function.Acts → call.OnLoop) ↔
      ((∃ sock, api = .close sock) ∧ Settled handle) ∨ s.position.AtHome api := by
  cases isStream : api.socket with
  | none =>
      have onLoop := (hops_onLoop handle isStream s.position s _ _ rfl executed).1
      exact iff_of_true (fun call made _ => onLoop call made) (.inr (atHome_hop _ isStream))
  | some sock =>
      obtain ⟨⟨started⟩, -⟩ := stream_started isStream executed
      rw [started.onLoop_iff isStream, started.acts_iff, imp_iff_not_or, not_not]

/-- What each step meets where it starts, the program meets along its positions. -/
theorem program_iff {Good : Step → Prop} {D : Position → Step → Prop}
    (each : ∀ api handle s calls out, Exec (V := V) Perform (api.sender handle) s calls out →
      (Good ⟨api, handle, calls⟩ ↔ D s.position ⟨api, handle, calls⟩))
    (executed : Exec Runs p s steps out) :
    (∀ o ∈ steps, Good o) ↔ Along Position.advance D s.position steps := by
  refine executed.along (P := fun s steps => (∀ o ∈ steps, Good o) ↔
    Along Position.advance D s.position steps) ?start ?step ?stop
  case start => simp
  case step =>
    intro api s es v s' later ran ih
    cases ran with
    | step _ started =>
        rw [List.singleton_append, List.forall_mem_cons, each _ _ _ _ _ started, ih,
          sender_position started s' rfl]
        simp [Along, Position.advance]
  case stop =>
    intro api s es out ran _
    cases ran with
    | step _ started => simp [each _ _ _ _ _ started, Along]

/-- Programs without Stream operations keep to the loop threads from wherever they start. -/
theorem hopping_program_onLoop (executed : Exec Runs p s steps out)
    (hops : ∀ o ∈ steps, o.api.socket = none) : ∀ o ∈ steps, o.OnLoop := by
  have along : Along Position.advance (fun _ o => o.api.socket = none) s.position steps :=
    along_of_forall hops
  exact (program_iff (fun _ _ _ _ _ => sender_onLoop_iff) executed).mpr
    (along.mono fun pos _ hops => atHome_hop pos hops)

/-- **A program calls libuv on the loop thread exactly when its Stream operations start
there.**  Of the calls that act, a Close with nothing to close makes none. -/
theorem calls_on_loop_iff (executed : Exec Runs p s steps out) :
    ((∀ o ∈ steps, o.OnLoop) ↔
      Along Position.advance (fun pos o => pos.AtHome o.api) s.position steps) ∧
    ((∀ o ∈ steps, o.ActsOnLoop) ↔
      Along Position.advance (fun pos o => o.Idle ∨ pos.AtHome o.api) s.position steps) :=
  ⟨program_iff (fun _ _ _ _ _ => sender_onLoop_iff) executed,
    program_iff (fun _ _ _ _ _ => sender_actsOnLoop_iff) executed⟩

end Programs

/-! ## A program that looks up an address between two uses of a socket -/

section Session

/-- A socket connects, an address is looked up, and then `rest`. -/
def session (rest : Pipeline Api Unit) : Pipeline Api Unit :=
  .andLet (.andLet (.leaf (.connect 0 0)) fun _ => .leaf .lookupIp) fun _ => rest

/-- `main()`, with no socket connected. -/
def mainThread : State where
  thread := .other 0
  home _ := none

/-- After the session: on the first worker of the pool. -/
def afterLookup : State where
  thread := .pool 0
  home := Function.update (fun _ => none) 0 (some 0)

/-- The handle of a connected socket with nothing to send. -/
def connected : StreamHandle.Handle := ⟨some .socket, true, 0, .active, none, true⟩

def connectStep : Step where
  api := .connect 0 0
  handle := connected
  calls := [⟨.getLoop, some 0, .loop 0⟩, ⟨.uvTcpInitEx, some 0, .loop 0⟩,
    ⟨.uvTcpConnect, some 0, .loop 0⟩]

def lookupStep : Step where
  api := .lookupIp
  handle := connected
  calls := [⟨.getLoop, some 0, .loop 0⟩, ⟨.uvGetaddrinfo, some 0, .loop 0⟩]

theorem hop_executed {V : Type} {c : Nat} {rest : Pipeline Prim V} {s : State} {calls : List Call}
    {out : Outcome V State} (v : V) (executed : Exec Perform rest (s.on (.loop c)) calls out) :
    Exec Perform (hop c rest) s (⟨.getLoop, some c, .loop c⟩ :: calls) out := by
  have scheduled : Perform (.schedule c) s [] (.value v (s.on (.loop c))) := .scheduled (.value v)
  have asserted : Perform (.inline [.getLoop] (.loop c)) (s.on (.loop c))
      [⟨.getLoop, some c, .loop c⟩] (.value v (s.on (.loop c))) := .inline v
  exact .seq (.leaf scheduled) (.seq (.leaf asserted) executed)

theorem connectStep_runs :
    Runs (.connect 0 0) mainThread [connectStep] (.value () (afterLookup.on (.loop 0))) := by
  have home : (afterLookup.on (.loop 0)).contextOf (.socket 0) = some 0 := rfl
  have initialised : Perform (.init 0 0) (mainThread.on (.loop 0))
      [⟨.uvTcpInitEx, some 0, .loop 0⟩] (.value () (afterLookup.on (.loop 0))) := .init ()
  have connecting : Perform (.start [.uvTcpConnect] [[]] (.socket 0))
      (afterLookup.on (.loop 0)) [⟨.uvTcpConnect, some 0, .loop 0⟩]
      (.value () (afterLookup.on (.loop 0))) :=
    .calledBack home List.mem_cons_self (.value ())
  exact .step connected (hop_executed () (.seq (.leaf initialised) (.leaf connecting)))

theorem lookupStep_runs :
    Runs .lookupIp (afterLookup.on (.loop 0)) [lookupStep] (.value () afterLookup) := by
  have looking : Perform (.start [.uvGetaddrinfo] [[]] (.loop 0))
      (afterLookup.on (.loop 0)) [⟨.uvGetaddrinfo, some 0, .loop 0⟩]
      (.value () (afterLookup.on (.loop 0))) :=
    .calledBack rfl List.mem_cons_self (.value ())
  have lookup : Exec Perform (hop 0 (.leaf (.start [.uvGetaddrinfo] [[]] (.loop 0))))
      (afterLookup.on (.loop 0)) lookupStep.calls (.value () (afterLookup.on (.loop 0))) :=
    hop_executed () (.leaf looking)
  have pooled : Perform .schedulePool (afterLookup.on (.loop 0)) []
      (.value () afterLookup) := .pooled 0 (.value ())
  exact .step connected (.seq lookup (.thenValue (.leaf pooled)))

theorem session_executed {rest : Pipeline Api Unit} {steps : List Step}
    {out : Outcome Unit State} (executed : Exec Runs rest afterLookup steps out) :
    Exec Runs (session rest) mainThread (connectStep :: lookupStep :: steps) out :=
  .seq (.seq (.leaf connectStep_runs) (.leaf lookupStep_runs)) executed

/-- A Write that is not called back, from any thread. -/
theorem write_runs (s : State) :
    Runs (V := Unit) (.write 0) s [⟨.write 0, connected, [⟨.uvWrite, s.home 0, s.thread⟩]⟩]
      .pending :=
  .step connected (.leaf .notCalledBack)

/-- With a `schedule()` in between, the socket is written to on its loop thread. -/
theorem calls_on_loop_iff_rescheduled :
    ∃ steps, Exec Runs (session (.andLet (.leaf (.schedule 0)) fun _ => .leaf (.write 0)))
        mainThread steps .pending ∧
      (∃ o ∈ steps, ⟨.uvWrite, some 0, .loop 0⟩ ∈ o.calls) ∧
      (∀ o ∈ steps, o.OnLoop) ∧ ∀ o ∈ steps, o.ActsOnLoop := by
  have scheduled : Runs (.schedule 0) afterLookup [⟨.schedule 0, connected, []⟩]
      (.value () (afterLookup.on (.loop 0))) :=
    .step connected (.leaf (.scheduled (.value ())))
  have executed := session_executed (.seq (.leaf scheduled) (.leaf (write_runs _)))
  obtain ⟨onLoop, actsOnLoop⟩ := calls_on_loop_iff executed
  have atHome : Along Position.advance (fun pos o => pos.AtHome o.api) mainThread.position
      (connectStep :: lookupStep :: ([⟨.schedule 0, connected, []⟩] ++
        [⟨.write 0, connected, [⟨.uvWrite, some 0, .loop 0⟩]⟩])) := by
    refine along_cons (atHome_hop _ rfl) rfl (along_cons (atHome_hop _ rfl) rfl
      (along_cons (atHome_hop _ rfl) rfl (along_cons ?_ rfl trivial)))
    rintro _ ⟨⟩ c home
    exact home
  refine ⟨_, executed, ⟨_, .tail _ (.tail _ (.tail _ List.mem_cons_self)), List.mem_cons_self⟩,
    onLoop.mpr atHome, actsOnLoop.mpr (atHome.mono fun _ _ => .inr)⟩

/-- Without it, `uv_write` is called on the thread pool. -/
theorem write_after_lookup :
    ∃ steps, Exec Runs (session (.leaf (.write 0))) mainThread steps .pending ∧
      ∃ o ∈ steps, ∃ call ∈ o.calls,
        call = ⟨.uvWrite, some 0, .pool 0⟩ ∧ call.function.Acts ∧ ¬ call.OnLoop := by
  have executed := session_executed (.leaf (write_runs afterLookup))
  have written : (⟨.uvWrite, some 0, .pool 0⟩ : Call) ∈
      [(⟨.uvWrite, afterLookup.home 0, afterLookup.thread⟩ : Call)] := List.mem_cons_self
  refine ⟨_, executed, _, .tail _ (.tail _ List.mem_cons_self), _, written, rfl, trivial, ?_⟩
  simp [Call.OnLoop]

end Session

end PatBase.Runtime.Threads
