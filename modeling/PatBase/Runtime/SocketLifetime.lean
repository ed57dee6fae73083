/-
# PatBase.Runtime.SocketLifetime -- when `~TCPSocket` terminates

The destructor of tcp_socket.cc terminates unless `uv_is_closing`, so a socket must be
closed before it goes.  All it can look at is the flag word of the handle: the default
constructor leaves it zero, `uv_tcp_init_ex` in the continuation of a Connect sets it,
`uv_close` and the close callback change it, and the move constructor forges it.

`Phase` is where the handle really is with its loop; nothing but the model reads it.
`terminate_lawful_iff`: the flag word tells the destructor the truth about every handle
but one that no `uv_tcp_init_ex` has registered and that has not been moved from.
-/
import PatBase.Lib.Machine
import PatBase.Lib.Objects

namespace PatBase.Runtime.SocketLifetime

open PatBase.Lib.Machine PatBase.Lib.Objects

set_option autoImplicit false

/-! ## The flag word -/

abbrev Flags := BitVec 32

def UV_HANDLE_CLOSING : Flags := 0x00000001#32
def UV_HANDLE_CLOSED : Flags := 0x00000002#32
def UV_HANDLE_REF : Flags := 0x00000008#32
def UV_HANDLE_READABLE : Flags := 0x00004000#32
def UV_HANDLE_WRITABLE : Flags := 0x00008000#32

def uvIsClosing (flags : Flags) : Bool :=
  flags &&& (UV_HANDLE_CLOSING ||| UV_HANDLE_CLOSED) != 0#32

def uvIsWritable (flags : Flags) : Bool :=
  flags &&& UV_HANDLE_WRITABLE != 0#32

/-- The flags of a handle in use, which libuv changes at will but for these two. -/
def traffic (flags others : Flags) : Flags :=
  (flags &&& (UV_HANDLE_CLOSING ||| UV_HANDLE_CLOSED)) |||
    (others &&& ~~~(UV_HANDLE_CLOSING ||| UV_HANDLE_CLOSED))

section Flags

variable (flags others : Flags)

theorem uvIsClosing_traffic : uvIsClosing (traffic flags others) = uvIsClosing flags := by
  have same : traffic flags others &&& (UV_HANDLE_CLOSING ||| UV_HANDLE_CLOSED) =
      flags &&& (UV_HANDLE_CLOSING ||| UV_HANDLE_CLOSED) := by
    apply BitVec.eq_of_getLsbD_eq
    intro i inside
    simp only [traffic, BitVec.getLsbD_and, BitVec.getLsbD_or, BitVec.getLsbD_not, inside,
      decide_true, Bool.true_and]
    cases flags.getLsbD i <;> cases others.getLsbD i <;> cases UV_HANDLE_CLOSING.getLsbD i <;>
      cases UV_HANDLE_CLOSED.getLsbD i <;> rfl
  rw [uvIsClosing, same]
  rfl

/-- A word with one of the two bits. -/
theorem uvIsClosing_of_bit {i : Nat} (bit : flags.getLsbD i = true)
    (closes : (UV_HANDLE_CLOSING ||| UV_HANDLE_CLOSED).getLsbD i = true) :
    uvIsClosing flags = true := by
  refine bne_iff_ne.mpr fun none_ => ?_
  have here := congrArg (BitVec.getLsbD · i) none_
  simp only [BitVec.getLsbD_and, bit, closes, BitVec.getLsbD_zero] at here
  cases here

end Flags

/-! ## Sockets -/

/-- Where a handle is with its loop. -/
inductive Phase where
  /-- Default constructed. -/
  | fresh
  /-- `uv_tcp_init_ex` could not make a socket and took the handle off the loop again. -/
  | refused
  | active
  /-- `uv_close` has been called, its callback is still to run. -/
  | closing
  | closed
  | movedFrom
  deriving DecidableEq, Repr

/-- The loop knows the handle. -/
def Phase.Registered (phase : Phase) : Prop := phase = .active ∨ phase = .closing

structure Socket where
  flags : Flags
  writeQueueSize : Nat
  /-- Connects whose continuation is still to run. -/
  connects : Nat
  /-- Shutdown requests that have yet to call back. -/
  shutdowns : Nat
  phase : Phase
  deriving DecidableEq, Repr

namespace Socket

variable (socket : Socket)

/-- `TCPSocket::TCPSocket()` -/
def construct : Socket := ⟨0#32, 0, 0, 0, .fresh⟩

/-- `~TCPSocket` calls `std::terminate`. -/
def Terminates : Prop := uvIsClosing socket.flags = false

/-- The continuation of Connect: `uv_tcp_init_ex`, whose result is ignored. -/
def continueConnect (created : Bool) : Option Socket :=
  if 0 < socket.connects then
    some { socket with
      flags := UV_HANDLE_REF
      writeQueueSize := 0
      connects := socket.connects - 1
      phase := if created then .active else .refused }
  else none

/-- `uv_close`; it aborts on a handle that has never been initialised. -/
def uvClose : Option Socket :=
  if socket.phase = .fresh then none
  else some { socket with
    flags := (socket.flags ||| UV_HANDLE_CLOSING) &&&
      ~~~(UV_HANDLE_READABLE ||| UV_HANDLE_WRITABLE)
    phase := .closing }

/-- `if (uv_is_closing(...) == 0) uv_close(...)` -/
def closeUnlessClosing : Option Socket :=
  if uvIsClosing socket.flags = false then socket.uvClose else some socket

/-- `_stream_close::_op::start`; `accepted` is what `uv_shutdown` says. -/
def startClose (accepted : Bool) : Option Socket :=
  if uvIsWritable socket.flags = true ∧ 0 < socket.writeQueueSize then
    some (if accepted then { socket with shutdowns := socket.shutdowns + 1 } else socket)
  else socket.closeUnlessClosing

/-- The shutdown callback, with any status: it goes on after its `set_error`. -/
def shutdownCallback : Option Socket :=
  if 0 < socket.shutdowns then
    closeUnlessClosing { socket with shutdowns := socket.shutdowns - 1 }
  else none

/-- Libuv is done with the handle and calls back. -/
def closeCallback : Option Socket :=
  if socket.phase = .closing then
    some { socket with
      flags := (socket.flags ||| UV_HANDLE_CLOSED) &&& ~~~UV_HANDLE_REF
      phase := .closed }
  else none

/-- Reads and Writes and their callbacks; libuv refuses them without touching the flags
where the handle is not registered. -/
def readWrite (others : Flags) (writeQueueSize : Nat) : Socket :=
  if socket.phase = .active ∨ socket.phase = .closing then
    { socket with flags := traffic socket.flags others, writeQueueSize }
  else socket

/-- `TCPSocket(TCPSocket&&)`: the `memcpy`. -/
def moveTarget : Socket :=
  ⟨socket.flags, socket.writeQueueSize, 0, 0, socket.phase⟩

/-- The `memset` of the moved-from handle and its forged flag. -/
def moveSource : Socket :=
  { socket with flags := UV_HANDLE_CLOSED, writeQueueSize := 0, phase := .movedFrom }

end Socket

/-! ## Runs -/

abbrev State := Nat → Option Socket

inductive Act where
  | construct (id : Nat)
  /-- `Connect()` is called and its sender created. -/
  | createConnect (id : Nat)
  | continueConnect (id : Nat) (created : Bool)
  | readWrite (id : Nat) (others : Flags) (writeQueueSize : Nat)
  | startClose (id : Nat) (accepted : Bool)
  | shutdownCallback (id : Nat)
  | closeCallback (id : Nat)
  | moveConstruct (other this : Nat)
  | destroy (id : Nat)
  deriving DecidableEq, Repr

/-- What an act does to the one socket it is about. -/
def Socket.act (socket : Socket) : Act → Option Socket
  | .createConnect _ => some { socket with connects := socket.connects + 1 }
  | .continueConnect _ created => socket.continueConnect created
  | .readWrite _ others writeQueueSize => some (socket.readWrite others writeQueueSize)
  | .startClose _ accepted => socket.startClose accepted
  | .shutdownCallback _ => socket.shutdownCallback
  | .closeCallback _ => socket.closeCallback
  | _ => none

/-- The socket `id` takes its part of an act. -/
def onSocket (s : State) (id : Nat) (a : Act) : Option State :=
  match s id with
  | some socket => (socket.act a).map fun after => Function.update s id (some after)
  | none => none

def step (s : State) : Act → Option State
  | .construct id =>
      match s id with
      | none => some (Function.update s id (some .construct))
      | some _ => none
  | .moveConstruct other this =>
      match s other, s this with
      | some socket, none =>
          -- sockets are moved while unconnected or closed
          if socket.phase = .active ∨ socket.phase = .closing then none
          else some (Function.update (Function.update s this (some socket.moveTarget)) other
            (some socket.moveSource))
      | _, _ => none
  | .destroy id =>
      match s id with
      | some socket =>
          if uvIsClosing socket.flags = false then none else some (Function.update s id none)
      | none => none
  | .createConnect id => onSocket s id (.createConnect id)
  | .continueConnect id created => onSocket s id (.continueConnect id created)
  | .readWrite id others writeQueueSize => onSocket s id (.readWrite id others writeQueueSize)
  | .startClose id accepted => onSocket s id (.startClose id accepted)
  | .shutdownCallback id => onSocket s id (.shutdownCallback id)
  | .closeCallback id => onSocket s id (.closeCallback id)

def init : State := fun _ => none

/-! ## What the flag word says -/

/-- The destructor terminates only for a registered handle, and does for one that is not
closing. -/
structure Lawful (socket : Socket) : Prop where
  unregistered : ¬ socket.phase.Registered → ¬ socket.Terminates
  active : socket.phase = .active → socket.Terminates

/-- The phases in which the flag word says "closing". -/
def Phase.looksClosing : Phase → Bool
  | .fresh | .refused | .active => false
  | .closing | .closed | .movedFrom => true

/-- The flag word is that of the phase. -/
def Truthful (socket : Socket) : Prop :=
  uvIsClosing socket.flags = socket.phase.looksClosing

/-- The phases whose flag word tells the destructor what it has to know. -/
theorem Phase.looksClosing_iff (phase : Phase) :
    ((¬ phase.Registered → phase.looksClosing = true) ∧
        (phase = .active → phase.looksClosing = false)) ↔
      phase ≠ .fresh ∧ phase ≠ .refused := by
  cases phase <;> simp [Phase.Registered, Phase.looksClosing]

theorem Truthful.lawful_iff {socket : Socket} (truthful : Truthful socket) :
    Lawful socket ↔ socket.phase ≠ .fresh ∧ socket.phase ≠ .refused := by
  have evidence : socket.Terminates ↔ socket.phase.looksClosing = false := by
    rw [Socket.Terminates, truthful]
  rw [← socket.phase.looksClosing_iff]
  constructor
  · intro lawful
    refine ⟨fun unregistered => ?_, fun active => evidence.mp (lawful.active active)⟩
    have spared := lawful.unregistered unregistered
    rw [evidence] at spared
    exact eq_true_of_ne_false spared
  · rintro ⟨unregistered, active⟩
    refine ⟨fun notRegistered terminates => ?_, fun inUse => evidence.mpr (active inUse)⟩
    cases (unregistered notRegistered).symm.trans (evidence.mp terminates)

section Steps

variable {socket socket' : Socket} {a : Act}

theorem uvClose_truthful (taken : socket.uvClose = some socket') : Truthful socket' := by
  simp only [Socket.uvClose, Option.ite_none_left_eq_some, Option.some.injEq] at taken
  obtain ⟨-, rfl⟩ := taken
  show uvIsClosing _ = true
  refine uvIsClosing_of_bit _ (i := 0) ?_ (by decide)
  have closing : UV_HANDLE_CLOSING.getLsbD 0 = true := by decide
  have kept : (~~~(UV_HANDLE_READABLE ||| UV_HANDLE_WRITABLE)).getLsbD 0 = true := by decide
  rw [BitVec.getLsbD_and, BitVec.getLsbD_or, closing, kept, Bool.or_true]
  rfl

theorem closeUnlessClosing_truthful (truthful : Truthful socket)
    (taken : socket.closeUnlessClosing = some socket') : Truthful socket' := by
  unfold Socket.closeUnlessClosing at taken
  split at taken
  · exact uvClose_truthful taken
  · cases taken
    exact truthful

/-- An act on one socket keeps its flag word that of its phase. -/
theorem act_truthful (truthful : Truthful socket) (taken : socket.act a = some socket') :
    Truthful socket' := by
  cases a with
  | construct id => cases taken
  | moveConstruct other this => cases taken
  | destroy id => cases taken
  | createConnect id =>
      cases taken
      exact truthful
  | continueConnect id created =>
      simp only [Socket.act, Socket.continueConnect, Option.ite_none_right_eq_some,
        Option.some.injEq] at taken
      obtain ⟨-, rfl⟩ := taken
      cases created
      · show uvIsClosing UV_HANDLE_REF = false
        decide
      · show uvIsClosing UV_HANDLE_REF = false
        decide
  | readWrite id others writeQueueSize =>
      cases taken
      unfold Socket.readWrite
      split
      · exact (uvIsClosing_traffic socket.flags others).trans truthful
      · exact truthful
  | startClose id accepted =>
      simp only [Socket.act, Socket.startClose] at taken
      split at taken
      · cases taken
        cases accepted
        · exact truthful
        · exact truthful
      · exact closeUnlessClosing_truthful truthful taken
  | shutdownCallback id =>
      simp only [Socket.act, Socket.shutdownCallback, Option.ite_none_right_eq_some] at taken
      have called : Truthful { socket with shutdowns := socket.shutdowns - 1 } := truthful
      exact closeUnlessClosing_truthful called taken.2
  | closeCallback id =>
      simp only [Socket.act, Socket.closeCallback, Option.ite_none_right_eq_some,
        Option.some.injEq] at taken
      obtain ⟨-, rfl⟩ := taken
      have closed : UV_HANDLE_CLOSED.getLsbD 1 = true := by decide
      have kept : (~~~UV_HANDLE_REF).getLsbD 1 = true := by decide
      refine uvIsClosing_of_bit _ (i := 1) ?_ (by decide)
      rw [BitVec.getLsbD_and, BitVec.getLsbD_or, closed, kept, Bool.or_true]
      rfl

variable {s s' : State}

theorem onSocket_truthful {id : Nat} (all : All Truthful s)
    (taken : onSocket s id a = some s') : All Truthful s' := by
  unfold onSocket at taken
  split at taken
  · rename_i socket live
    obtain ⟨after, acted, rfl⟩ := Option.map_eq_some_iff.mp taken
    exact all.update (act_truthful (all id socket live) acted)
  · cases taken

theorem step_truthful (all : All Truthful s) (taken : step s a = some s') : All Truthful s' := by
  cases a with
  | construct id =>
      simp only [step] at taken
      split at taken
      · cases taken
        have zero : Truthful .construct := by
          show uvIsClosing 0#32 = false
          decide
        exact all.update zero
      · cases taken
  | moveConstruct other this =>
      simp only [step] at taken
      split at taken
      · rename_i socket live free
        simp only [Option.ite_none_left_eq_some, Option.some.injEq] at taken
        obtain ⟨-, rfl⟩ := taken
        have copied : Truthful socket.moveTarget := all other socket live
        have forged : Truthful socket.moveSource := by
          show uvIsClosing UV_HANDLE_CLOSED = true
          decide
        exact (all.update copied).update forged
      · cases taken
  | destroy id =>
      simp only [step] at taken
      split at taken
      · simp only [Option.ite_none_left_eq_some, Option.some.injEq] at taken
        obtain ⟨-, rfl⟩ := taken
        exact all.erase
      · cases taken
  | createConnect id => exact onSocket_truthful all taken
  | continueConnect id created => exact onSocket_truthful all taken
  | readWrite id others writeQueueSize => exact onSocket_truthful all taken
  | startClose id accepted => exact onSocket_truthful all taken
  | shutdownCallback id => exact onSocket_truthful all taken
  | closeCallback id => exact onSocket_truthful all taken

end Steps

/-- **The destructor's evidence.**  In every state of every run, for every live socket:
the destructor terminates for no unregistered handle, and for every initialised one that
is not closing, if and only if the handle is not one that is default constructed or that
a Connect failed to initialise. -/
theorem terminate_lawful_iff {acts : List Act} {s : State} {id : Nat} {socket : Socket}
    (reached : run step init acts = some s) (live : s id = some socket) :
    Lawful socket ↔ socket.phase ≠ .fresh ∧ socket.phase ≠ .refused := by
  have all : All Truthful s :=
    run_invariant (fun _ _ _ all taken => step_truthful all taken) all_none reached
  exact (all id socket live).lawful_iff

/-- A socket that is moved, connected, written to and closed. -/
def session : List Act :=
  [.construct 0, .moveConstruct 0 1, .createConnect 1, .continueConnect 1 true,
    .readWrite 1 0xC008#32 0, .startClose 1 true, .closeCallback 1]

theorem terminate_lawful_iff_session :
    ∃ s socket, run step init session = some s ∧ s 1 = some socket ∧ socket.phase = .closed ∧
      (Lawful socket ↔ socket.phase ≠ .fresh ∧ socket.phase ≠ .refused) :=
  ⟨_, _, rfl, rfl, rfl, @terminate_lawful_iff session _ 1 _ rfl rfl⟩

/-- A socket that is made and never connected. -/
theorem unconnected_terminates :
    ∃ s socket, run step init [.construct 0] = some s ∧ s 0 = some socket ∧
      ¬ socket.phase.Registered ∧ socket.Terminates ∧ ¬ Lawful socket := by
  have unregistered : ¬ Socket.construct.phase.Registered := by
    rintro (same | same) <;> cases same
  have terminates : Socket.construct.Terminates := by
    show uvIsClosing 0#32 = false
    decide
  exact ⟨_, _, rfl, rfl, unregistered, terminates,
    fun lawful => lawful.unregistered unregistered terminates⟩

end PatBase.Runtime.SocketLifetime
