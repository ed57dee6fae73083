/-
# PatBase.Runtime.ClientLoop -- what the network test leaves in the loop

The senders of a pipeline on the machine of `LoopHandles`, where the handle of the socket
stands in the loop's queue from `uv_tcp_init_ex` to the callback of `uv_close`.  A Close
completes in that callback, and `let_value_with` destroys the socket when the pipeline in
it has completed: so where the senders keep to the order of `SocketOrder`, the loop has
taken the handle off before the socket goes.

* `client_empties_the_loop`: in every execution of the network test on a loop that can make
  its socket, the loop never knows a handle of a socket that is gone, and knows none at the
  end, so that the `uv_loop_close` of `~context` succeeds.
-/
import PatBase.Runtime.LoopHandles
import PatBase.Runtime.SocketOrder

namespace PatBase.Runtime.ClientLoop

open PatBase.Lib.Machine PatBase.Lib.Signals PatBase.Lib.Trails
open PatBase.Runtime.Client (Leaf Result Exception)
open PatBase.Runtime.LoopHandles
open PatBase.Runtime.SocketLifetime (Act Phase Socket Truthful uvIsClosing uvIsWritable)
open PatBase.Runtime.SocketOrder (Role Stage order)

set_option autoImplicit false

/-! ## What the senders do -/

/-- What libuv and the peer do to the socket while no Write is under way. -/
def Calm : Act → Prop
  | .readWrite id _ writeQueueSize => id = 0 ∧ writeQueueSize = 0
  | .shutdownCallback id | .closeCallback id => id = 0
  | _ => False

/-- While one is. -/
def Busy : Act → Prop
  | .readWrite id _ _ | .shutdownCallback id | .closeCallback id => id = 0
  | _ => False

/-- The steps of each sender from its start to its completion; the socket is number 0. -/
inductive Completes : Leaf → State → List Act → Signal Result Exception → State → Prop where
  | lookupIp {s s' : State} {acts : List Act} {signal : Signal Result Exception}
      (calm : ∀ a ∈ acts, Calm a) : Completes .lookupIp s acts signal s'
  | construct {s s' : State} : Completes .construct s [.construct 0] (.value (.value .unit)) s'
  /-- The `schedule()` of Connect finds that stop was requested. -/
  | cancelled {ip : Net.Ip} {s s' : State} {acts : List Act} (calm : ∀ a ∈ acts, Calm a) :
      Completes (.connect ip) s (.createConnect 0 :: acts) .done s'
  | connect {ip : Net.Ip} {s s' : State} {before after : List Act} (created : Bool)
      {signal : Signal Result Exception} (calm : ∀ a ∈ before ++ after, Calm a)
      (completed : signal ≠ .done) :
      Completes (.connect ip) s
        (.createConnect 0 :: (before ++ .continueConnect 0 created :: after)) signal s'
  /-- When a Write calls back, nothing is queued. -/
  | write {s s' : State} {acts : List Act} {signal : Signal Result Exception}
      (busy : ∀ a ∈ acts, Busy a)
      (sent : ∀ socket, s'.sockets 0 = some socket → socket.writeQueueSize = 0)
      (completed : signal ≠ .done) : Completes .write s acts signal s'
  | resize {s s' : State} {acts : List Act} {signal : Signal Result Exception}
      (calm : ∀ a ∈ acts, Calm a) (completed : signal ≠ .done) : Completes .resize s acts signal s'
  | read {s s' : State} {acts : List Act} {signal : Signal Result Exception}
      (calm : ∀ a ∈ acts, Calm a) (completed : signal ≠ .done) : Completes .read s acts signal s'
  /-- A Close completes in the close callback. -/
  | closed {s s' : State} {acts : List Act} (accepted : Bool) (calm : ∀ a ∈ acts, Calm a) :
      Completes .close s (.startClose 0 accepted :: (acts ++ [.closeCallback 0]))
        (.value (.value .unit)) s'
  /-- At once, on a handle that is closing with nothing unsent. -/
  | closedAlready {s s' : State} {socket : Socket} (accepted : Bool)
      (live : s.sockets 0 = some socket) (closing : uvIsClosing socket.flags = true)
      (sent : ¬ (uvIsWritable socket.flags = true ∧ 0 < socket.writeQueueSize)) :
      Completes .close s [.startClose 0 accepted] (.value (.value .unit)) s'
  /-- In the callback of a shutdown that failed. -/
  | notShutDown {s s' : State} {acts : List Act} {x : Exception} (accepted : Bool)
      (calm : ∀ a ∈ acts, Calm a) :
      Completes .close s (.startClose 0 accepted :: (acts ++ [.shutdownCallback 0])) (.error x) s'
  | destroy {s s' : State} {acts : List Act} (calm : ∀ a ∈ acts, Calm a) :
      Completes .destroy s (acts ++ [.destroy 0]) (.value (.value .unit)) s'
  /-- The destructor terminates. -/
  | terminate {s s' : State} {socket : Socket} {acts : List Act} (calm : ∀ a ∈ acts, Calm a)
      (live : s'.sockets 0 = some socket) (terminates : socket.Terminates) :
      Completes .destroy s acts .done s'

/-- `uv_tcp_init_ex` can make a socket. -/
def Created (a : Act) : Prop := ∀ id created, a = .continueConnect id created → created = true

/-! ## The states between the senders -/

/-- The socket, if there is one, and what the loop knows. -/
def only (socket : Option Socket) (handles : List Nat) : State :=
  ⟨Function.update SocketLifetime.init 0 socket, handles⟩

/-- No shutdown is pending, and the flags tell the truth. -/
structure Steady (phase : Phase) (connects : Nat) (socket : Socket) : Prop where
  truthful : Truthful socket
  phase : socket.phase = phase
  connects : socket.connects = connects
  shutdowns : socket.shutdowns = 0

/-- A steady socket, with nothing queued. -/
def Stays (phase : Phase) (connects : Nat) (handles : List Nat) (s : State) : Prop :=
  ∃ socket, s = only (some socket) handles ∧ Steady phase connects socket ∧
    socket.writeQueueSize = 0

def Fits : Stage → State → Prop
  | .unborn, s => s = only none []
  | .fresh, s => Stays .fresh 0 [] s
  | .cancelled, s => Stays .fresh 1 [] s
  | .connected, s => Stays .active 0 [0] s
  | .closed, s => Stays .closed 0 [] s
  | .gone, s => s = only none [] ∨ Stays .fresh 1 [] s

/-- The discipline of `LoopHandles`. -/
def Disciplined (s : State) (a : Act) : Prop := Managed s a ∧ Finished s a

section Senders

variable {s s' : State} {a : Act} {acts : List Act} {socket after : Socket} {handles : List Nat}
  {phase : Phase} {n : Nat} {accepted : Bool}

theorem only_sockets {socket : Option Socket} : (only socket handles).sockets 0 = socket := by
  simp [only]

/-- A step of the one socket. -/
theorem step_only
    (own : ∀ s : SocketLifetime.State, SocketLifetime.step s a = SocketLifetime.onSocket s 0 a)
    (taken : step (only (some socket) handles) a = some s') :
    ∃ after, socket.act a = some after ∧ s' = only (some after) (queued handles a) := by
  obtain ⟨sockets, moved, rfl⟩ := Option.map_eq_some_iff.mp taken
  rw [own] at moved
  obtain ⟨there, after, live, acted, rfl⟩ := onSocket_eq_some moved
  obtain rfl := Option.some.inj (only_sockets.symm.trans live)
  exact ⟨after, acted, by simp [only]⟩

theorem Busy.own (busy : Busy a) (s : SocketLifetime.State) :
    SocketLifetime.step s a = SocketLifetime.onSocket s 0 a := by
  cases a with
  | readWrite id others writeQueueSize =>
      obtain rfl := busy
      rfl
  | shutdownCallback id =>
      obtain rfl := busy
      rfl
  | closeCallback id =>
      obtain rfl := busy
      rfl
  | _ => cases busy

theorem Calm.busy (calm : Calm a) : Busy a := by
  cases a with
  | readWrite id others writeQueueSize => exact calm.1
  | shutdownCallback id => exact calm
  | closeCallback id => exact calm
  | _ => cases calm

/-- What libuv does to a steady socket: it changes the flags of one in use, and closes one
that is closing. -/
theorem busy_step (steady : Steady phase n socket) (busy : Busy a)
    (taken : step (only (some socket) handles) a = some s') :
    (∃ after, s' = only (some after) handles ∧ Steady phase n after ∧
      (Calm a → socket.writeQueueSize = 0 → after.writeQueueSize = 0)) ∨
    phase = .closing ∧ ∃ after, s' = only (some after) (handles.erase 0) ∧
      Steady .closed n after ∧ after.writeQueueSize = socket.writeQueueSize := by
  obtain ⟨after, acted, rfl⟩ := step_only busy.own taken
  have truthful := SocketLifetime.act_truthful steady.truthful acted
  cases a with
  | readWrite id others writeQueueSize =>
      left
      refine ⟨after, rfl, ?_⟩
      cases acted
      unfold Socket.readWrite at truthful ⊢
      split at truthful
      · rename_i inUse
        rw [if_pos inUse]
        exact ⟨⟨truthful, steady.phase, steady.connects, steady.shutdowns⟩, fun calm _ => calm.2⟩
      · rename_i unused
        rw [if_neg unused]
        exact ⟨steady, fun _ sent => sent⟩
  | shutdownCallback id =>
      simp [Socket.act, Socket.shutdownCallback, steady.shutdowns] at acted
  | closeCallback id =>
      obtain rfl := busy
      simp only [Socket.act, Socket.closeCallback, Option.ite_none_right_eq_some,
        Option.some.injEq] at acted
      obtain ⟨closing, rfl⟩ := acted
      exact .inr ⟨steady.phase.symm.trans closing, _, rfl,
        ⟨truthful, rfl, steady.connects, steady.shutdowns⟩, rfl⟩
  | _ => cases busy

theorem busy_disciplined (steady : Steady phase n socket) (made : phase ≠ .refused)
    (busy : Busy a) : Disciplined (only (some socket) handles) a := by
  cases a with
  | readWrite id others writeQueueSize => exact ⟨trivial, trivial⟩
  | closeCallback id => exact ⟨trivial, trivial⟩
  | shutdownCallback id =>
      obtain rfl := busy
      refine ⟨fun there live => ?_, trivial⟩
      obtain rfl := Option.some.inj (only_sockets.symm.trans live)
      rw [steady.phase]
      exact made
  | _ => cases busy

theorem stays_kept (stays : Stays phase n handles s) (calm : Calm a)
    (taken : step s a = some s') (settled : phase ≠ .refused ∧ phase ≠ .closing) :
    Disciplined s a ∧ Stays phase n handles s' := by
  obtain ⟨socket, rfl, steady, sent⟩ := stays
  refine ⟨busy_disciplined steady settled.1 calm.busy, ?_⟩
  rcases busy_step steady calm.busy taken with ⟨after, rfl, steady, kept⟩ | ⟨closing, -⟩
  · exact ⟨after, rfl, steady, kept calm sent⟩
  · exact absurd closing settled.2

theorem stays_run (stays : Stays phase n handles s) (calm : ∀ a ∈ acts, Calm a)
    (reached : run step s acts = some s') (settled : phase ≠ .refused ∧ phase ≠ .closing) :
    Along step Disciplined s acts ∧ Stays phase n handles s' :=
  along_kept (fun _ _ _ stays calm taken => stays_kept stays calm taken settled) calm stays reached

/-- Without a socket there is nothing to do. -/
theorem none_ends (busy : Busy a) : step (only none handles) a ≠ some s' := by
  intro taken
  obtain ⟨sockets, moved, rfl⟩ := Option.map_eq_some_iff.mp taken
  rw [busy.own] at moved
  obtain ⟨there, after, live, -⟩ := onSocket_eq_some moved
  cases only_sockets.symm.trans live

theorem fits_kept {stage : Stage} (fits : Fits stage s) (calm : Calm a)
    (taken : step s a = some s') : Disciplined s a ∧ Fits stage s' := by
  cases stage with
  | unborn =>
      obtain rfl : s = only none [] := fits
      exact absurd taken (none_ends calm.busy)
  | fresh => exact stays_kept fits calm taken (by decide)
  | cancelled => exact stays_kept fits calm taken (by decide)
  | connected => exact stays_kept fits calm taken (by decide)
  | closed => exact stays_kept fits calm taken (by decide)
  | gone =>
      rcases fits with rfl | cancelled
      · exact absurd taken (none_ends calm.busy)
      · obtain ⟨meets, stays⟩ := stays_kept cancelled calm taken (by decide)
        exact ⟨meets, .inr stays⟩

/-! ## One sender after another -/

theorem construct_kept (taken : step (only none []) (.construct 0) = some s') :
    Disciplined (only none []) (.construct 0) ∧ Stays .fresh 0 [] s' := by
  refine ⟨⟨trivial, trivial⟩, .construct, ?_, ⟨rfl, rfl, rfl, rfl⟩, rfl⟩
  obtain ⟨sockets, moved, rfl⟩ := Option.map_eq_some_iff.mp taken
  have free : SocketLifetime.step (only none []).sockets (.construct 0) =
      some (Function.update (only none []).sockets 0 (some .construct)) := by
    simp only [SocketLifetime.step, only_sockets]
  obtain rfl := Option.some.inj (free.symm.trans moved)
  simp [only, queued]

theorem createConnect_kept (fresh : Stays .fresh 0 [] s) (calm : ∀ a ∈ acts, Calm a)
    (reached : run step s (.createConnect 0 :: acts) = some s') :
    Along step Disciplined s (.createConnect 0 :: acts) ∧ Stays .fresh 1 [] s' := by
  obtain ⟨socket, rfl, steady, sent⟩ := fresh
  obtain ⟨s₁, taken, rest⟩ := run_cons_eq_some.mp reached
  obtain ⟨after, acted, rfl⟩ := step_only (fun _ => rfl) taken
  cases acted
  have created : Stays .fresh 1 []
      (only (some { socket with connects := socket.connects + 1 }) []) :=
    ⟨_, rfl, ⟨steady.truthful, steady.phase, congrArg (· + 1) steady.connects, steady.shutdowns⟩,
      sent⟩
  obtain ⟨along, stays⟩ := stays_run created calm rest (by decide)
  exact ⟨along_cons ⟨trivial, trivial⟩ taken along, stays⟩

theorem connect_kept {before later : List Act} (fresh : Stays .fresh 0 [] s)
    (calm : ∀ a ∈ before ++ later, Calm a)
    (reached : run step s (.createConnect 0 :: (before ++ .continueConnect 0 true :: later)) =
      some s') :
    Along step Disciplined s (.createConnect 0 :: (before ++ .continueConnect 0 true :: later)) ∧
      Stays .active 0 [0] s' := by
  rw [← List.cons_append] at reached ⊢
  obtain ⟨s₁, front, back⟩ := run_append_eq_some.mp reached
  obtain ⟨created, waiting⟩ := createConnect_kept fresh
    (fun a member => calm a (List.mem_append_left _ member)) front
  obtain ⟨socket, rfl, steady, -⟩ := waiting
  obtain ⟨s₂, taken, rest⟩ := run_cons_eq_some.mp back
  have meets : Disciplined (only (some socket) []) (.continueConnect 0 true) := by
    refine ⟨fun there live => ?_, trivial⟩
    obtain rfl := Option.some.inj (only_sockets.symm.trans live)
    rw [steady.phase]
    rintro (h | h) <;> cases h
  obtain ⟨after, acted, rfl⟩ := step_only (fun _ => rfl) taken
  have truthful := SocketLifetime.act_truthful steady.truthful acted
  simp only [Socket.act, Socket.continueConnect, Option.ite_none_right_eq_some,
    Option.some.injEq] at acted
  obtain ⟨-, rfl⟩ := acted
  have none_ : socket.connects - 1 = 0 := by
    rw [steady.connects]
  have opened : Stays .active 0 [0] (only (some { socket with
      flags := SocketLifetime.UV_HANDLE_REF
      writeQueueSize := 0
      connects := socket.connects - 1
      phase := if true then .active else .refused }) [0]) :=
    ⟨_, rfl, ⟨truthful, rfl, none_, steady.shutdowns⟩, rfl⟩
  obtain ⟨along, stays⟩ :=
    stays_run opened (fun a member => calm a (List.mem_append_right _ member)) rest (by decide)
  exact ⟨along_append created front (along_cons meets taken along), stays⟩

theorem write_kept (opened : Stays .active 0 [0] s) (busy : ∀ a ∈ acts, Busy a)
    (reached : run step s acts = some s')
    (sent : ∀ socket, s'.sockets 0 = some socket → socket.writeQueueSize = 0) :
    Along step Disciplined s acts ∧ Stays .active 0 [0] s' := by
  obtain ⟨socket, rfl, steady, -⟩ := opened
  have kept : ∀ s a s', (∃ socket, s = only (some socket) [0] ∧ Steady .active 0 socket) →
      Busy a → step s a = some s' →
        Disciplined s a ∧ ∃ socket, s' = only (some socket) [0] ∧ Steady .active 0 socket := by
    rintro s a s' ⟨socket, rfl, steady⟩ busy taken
    refine ⟨busy_disciplined steady nofun busy, ?_⟩
    rcases busy_step steady busy taken with ⟨after, rfl, steady, -⟩ | ⟨closing, -⟩
    · exact ⟨after, rfl, steady⟩
    · cases closing
  obtain ⟨along, after, rfl, steady⟩ := along_kept kept busy ⟨socket, rfl, steady⟩ reached
  exact ⟨along, after, rfl, steady, sent after only_sockets⟩

/-- A Close of an open socket calls `uv_close`. -/
theorem startClose_kept (opened : Stays .active 0 [0] s)
    (taken : step s (.startClose 0 accepted) = some s') :
    Disciplined s (.startClose 0 accepted) ∧ Stays .closing 0 [0] s' := by
  obtain ⟨socket, rfl, steady, sent⟩ := opened
  refine ⟨⟨fun there live => ?_, trivial⟩, ?_⟩
  · obtain rfl := Option.some.inj (only_sockets.symm.trans live)
    rw [steady.phase]
    nofun
  · obtain ⟨after, acted, rfl⟩ := step_only (fun _ => rfl) taken
    have truthful := SocketLifetime.act_truthful steady.truthful acted
    have looksOpen : uvIsClosing socket.flags = false := by
      rw [steady.truthful, steady.phase]
      rfl
    have drained : ¬ (uvIsWritable socket.flags = true ∧ 0 < socket.writeQueueSize) := by
      rw [sent]
      exact fun unsent => Nat.lt_irrefl 0 unsent.2
    have used : socket.phase ≠ .fresh := by
      rw [steady.phase]
      nofun
    simp only [Socket.act, Socket.startClose, if_neg drained, Socket.closeUnlessClosing,
      if_pos looksOpen, Socket.uvClose, if_neg used, Option.some.injEq] at acted
    obtain rfl := acted
    exact ⟨_, rfl, ⟨truthful, rfl, steady.connects, steady.shutdowns⟩, sent⟩

/-- From `uv_close` on. -/
def Ending (s : State) : Prop := Stays .closing 0 [0] s ∨ Stays .closed 0 [] s

theorem ending_kept (ending : Ending s) (calm : Calm a) (taken : step s a = some s') :
    Disciplined s a ∧ Ending s' := by
  rcases ending with ⟨socket, rfl, steady, sent⟩ | closed
  · refine ⟨busy_disciplined steady nofun calm.busy, ?_⟩
    rcases busy_step steady calm.busy taken with
      ⟨after, rfl, steady, kept⟩ | ⟨-, after, rfl, closed⟩
    · exact .inl ⟨after, rfl, steady, kept calm sent⟩
    · exact .inr ⟨after, rfl, closed.1, closed.2.trans sent⟩
  · obtain ⟨meets, stays⟩ := stays_kept closed calm taken (by decide)
    exact ⟨meets, .inr stays⟩

/-- The close callback takes the handle off the queue. -/
theorem closeCallback_closes (ending : Ending s) (taken : step s (.closeCallback 0) = some s') :
    Stays .closed 0 [] s' := by
  rcases ending with ⟨socket, rfl, steady, sent⟩ | ⟨socket, rfl, steady, -⟩
  · obtain ⟨after, acted, rfl⟩ := step_only (fun _ => rfl) taken
    have truthful := SocketLifetime.act_truthful steady.truthful acted
    simp only [Socket.act, Socket.closeCallback, Option.ite_none_right_eq_some,
      Option.some.injEq] at acted
    obtain ⟨-, rfl⟩ := acted
    exact ⟨_, rfl, ⟨truthful, rfl, steady.connects, steady.shutdowns⟩, sent⟩
  · obtain ⟨after, acted, rfl⟩ := step_only (fun _ => rfl) taken
    simp only [Socket.act, Socket.closeCallback, Option.ite_none_right_eq_some] at acted
    cases steady.phase.symm.trans acted.1

theorem shutdownCallback_ends (ending : Ending s) : step s (.shutdownCallback 0) ≠ some s' := by
  intro taken
  rcases ending with ⟨socket, rfl, steady, -⟩ | ⟨socket, rfl, steady, -⟩
  · obtain ⟨after, acted, -⟩ := step_only (fun _ => rfl) taken
    simp [Socket.act, Socket.shutdownCallback, steady.shutdowns] at acted
  · obtain ⟨after, acted, -⟩ := step_only (fun _ => rfl) taken
    simp [Socket.act, Socket.shutdownCallback, steady.shutdowns] at acted

/-- A Close on its way to the callback `a`. -/
theorem close_run (opened : Stays .active 0 [0] s) (calm : ∀ a ∈ acts, Calm a)
    (reached : run step s (.startClose 0 accepted :: (acts ++ [a])) = some s') :
    ∃ t, Along step Disciplined s (.startClose 0 accepted :: acts) ∧
      run step s (.startClose 0 accepted :: acts) = some t ∧ Ending t ∧ step t a = some s' := by
  obtain ⟨s₁, taken, rest⟩ := run_cons_eq_some.mp reached
  obtain ⟨t, earlier, last⟩ := run_snoc_eq_some.mp rest
  obtain ⟨meets, closing⟩ := startClose_kept opened taken
  obtain ⟨along, ending⟩ := along_kept (D := Disciplined)
    (fun _ _ _ ending calm taken => ending_kept ending calm taken) calm (.inl closing) earlier
  exact ⟨t, along_cons meets taken along, run_cons_eq_some.mpr ⟨s₁, taken, earlier⟩, ending, last⟩

theorem close_kept (opened : Stays .active 0 [0] s) (calm : ∀ a ∈ acts, Calm a)
    (reached : run step s (.startClose 0 accepted :: (acts ++ [.closeCallback 0])) = some s') :
    Along step Disciplined s (.startClose 0 accepted :: (acts ++ [.closeCallback 0])) ∧
      Stays .closed 0 [] s' := by
  obtain ⟨t, along, earlier, ending, last⟩ := close_run opened calm reached
  rw [← List.cons_append]
  exact ⟨(along_snoc earlier).mpr ⟨along, trivial, trivial⟩, closeCallback_closes ending last⟩

theorem destroy_step (taken : step (only (some socket) handles) (.destroy 0) = some s') :
    uvIsClosing socket.flags = true ∧ s' = only none handles := by
  obtain ⟨sockets, moved, rfl⟩ := Option.map_eq_some_iff.mp taken
  simp only [SocketLifetime.step, only_sockets, Option.ite_none_left_eq_some,
    Option.some.injEq, Bool.not_eq_false] at moved
  obtain ⟨closing, rfl⟩ := moved
  exact ⟨closing, by simp [only, queued]⟩

/-- Only a closed socket can be destroyed. -/
theorem destroy_kept (ended : Stays .fresh 1 [] s ∨ Stays .closed 0 [] s)
    (calm : ∀ a ∈ acts, Calm a) (reached : run step s (acts ++ [.destroy 0]) = some s') :
    Along step Disciplined s (acts ++ [.destroy 0]) ∧ s' = only none [] := by
  obtain ⟨t, earlier, last⟩ := run_snoc_eq_some.mp reached
  rcases ended with fresh | closed
  · obtain ⟨-, socket, rfl, steady, -⟩ := stays_run fresh calm earlier (by decide)
    have looksOpen : uvIsClosing socket.flags = false := by
      rw [steady.truthful, steady.phase]
      rfl
    cases looksOpen.symm.trans (destroy_step last).1
  · obtain ⟨along, socket, rfl, steady, -⟩ := stays_run closed calm earlier (by decide)
    refine ⟨(along_snoc earlier).mpr ⟨along, trivial, fun there live => ?_⟩,
      (destroy_step last).2⟩
    obtain rfl := Option.some.inj (only_sockets.symm.trans live)
    rw [steady.phase]
    nofun

end Senders

/-! ## Executions -/

section Executions

variable {s s' : State} {acts : List Act} {l : Leaf} {signal : Signal Result Exception}
  {stage stage' : Stage}

theorem completes_kept :
    Kept step (within Created Completes) (order SocketOrder.role) Disciplined Fits := by
  rintro stage s l acts signal s' stage' fits ordered moved ⟨completed, created⟩
  have aside : (∀ a ∈ acts, Calm a) → Along step Disciplined s acts ∧ Fits stage s' :=
    fun calm => along_kept (fun _ _ _ fits calm taken => fits_kept fits calm taken) calm fits moved
  cases completed with
  | lookupIp calm =>
      rw [SocketOrder.order_aside (.inl rfl) ordered]
      exact aside calm
  | resize calm =>
      rw [SocketOrder.order_aside (.inr rfl) ordered]
      exact aside calm
  | construct =>
      obtain ⟨rfl, rfl⟩ := SocketOrder.order_construct rfl ordered
      obtain rfl : s = only none [] := fits
      obtain ⟨t, taken, rest⟩ := run_cons_eq_some.mp moved
      obtain rfl := Option.some.inj rest
      obtain ⟨meets, fresh⟩ := construct_kept taken
      exact ⟨along_cons meets taken along_nil, fresh⟩
  | cancelled calm =>
      obtain ⟨rfl, cancelled, -⟩ := SocketOrder.order_connect rfl ordered
      rw [cancelled rfl]
      exact createConnect_kept fits calm moved
  | connect made calm completed =>
      obtain ⟨rfl, -, connected⟩ := SocketOrder.order_connect rfl ordered
      obtain rfl : made = true := created _ (by simp) 0 made rfl
      rw [connected completed]
      exact connect_kept fits calm moved
  | write busy sent completed =>
      obtain ⟨rfl, rfl⟩ := SocketOrder.order_transfer (.inl rfl) ordered
      exact write_kept fits busy moved sent
  | read calm completed =>
      obtain ⟨rfl, rfl⟩ := SocketOrder.order_transfer (.inr rfl) ordered
      exact aside calm
  | closed accepted calm =>
      obtain ⟨rfl, rfl⟩ := SocketOrder.order_close rfl ordered
      exact close_kept fits calm moved
  | closedAlready accepted live closing sent =>
      obtain ⟨rfl, rfl⟩ := SocketOrder.order_close rfl ordered
      obtain ⟨socket, rfl, steady, -⟩ := fits
      obtain rfl := Option.some.inj (only_sockets.symm.trans live)
      rw [steady.truthful, steady.phase] at closing
      cases closing
  | notShutDown accepted calm =>
      obtain ⟨rfl, rfl⟩ := SocketOrder.order_close rfl ordered
      obtain ⟨t, -, -, ending, last⟩ := close_run fits calm moved
      exact absurd last (shutdownCallback_ends ending)
  | destroy calm =>
      obtain ⟨rfl | rfl, rfl⟩ := SocketOrder.order_destroy rfl ordered
      · obtain ⟨along, rfl⟩ := destroy_kept (.inl fits) calm moved
        exact ⟨along, .inl rfl⟩
      · obtain ⟨along, rfl⟩ := destroy_kept (.inr fits) calm moved
        exact ⟨along, .inl rfl⟩
  | terminate calm live terminates =>
      obtain ⟨along, fits'⟩ := aside calm
      obtain ⟨rfl | rfl, rfl⟩ := SocketOrder.order_destroy rfl ordered
      · exact ⟨along, .inr fits'⟩
      · obtain ⟨socket, rfl, steady, -⟩ := fits'
        obtain rfl := Option.some.inj (only_sockets.symm.trans live)
        rw [Socket.Terminates, steady.truthful, steady.phase] at terminates
        cases terminates

theorem settles : SocketOrder.Settles step (within Created Completes) Fits where
  used l s acts s' uses completed := by
    obtain ⟨completed, -⟩ := completed
    cases completed with
    | write busy sent completed => exact completed rfl
    | resize calm completed => exact completed rfl
    | read calm completed => exact completed rfl
    | connect made calm completed => exact completed rfl
    | lookupIp => simp [SocketOrder.role] at uses
    | cancelled => simp [SocketOrder.role] at uses
    | terminate => simp [SocketOrder.role] at uses
  close s acts signal s' fits moved completed := by
    obtain ⟨completed, -⟩ := completed
    cases completed with
    | closed => exact ⟨_, rfl⟩
    | closedAlready => exact ⟨_, rfl⟩
    | notShutDown accepted calm =>
        obtain ⟨t, -, -, ending, last⟩ := close_run fits calm moved
        exact absurd last (shutdownCallback_ends ending)

/-- No handle is left where the socket is not open. -/
theorem Fits.handles {stage : Stage} (fits : Fits stage s) (finished : stage ≠ .connected) :
    s.handles = [] := by
  have stays : ∀ {phase n}, Stays phase n [] s → s.handles = [] := by
    rintro phase n ⟨socket, rfl, -⟩
    rfl
  cases stage with
  | unborn =>
      obtain rfl : s = only none [] := fits
      rfl
  | fresh => exact stays fits
  | cancelled => exact stays fits
  | connected => exact absurd rfl finished
  | closed => exact stays fits
  | gone =>
      rcases fits with rfl | cancelled
      · rfl
      · exact stays cancelled

end Executions

theorem only_none : only none [] = init := by
  have nobody : Function.update SocketLifetime.init 0 none = SocketLifetime.init := by
    funext id
    simp [Function.update_apply, SocketLifetime.init]
  rw [only, nobody]
  rfl

/-- **The client empties the loop.**  In every execution of the network test, whatever its
senders complete with, on a loop that can make its socket, the loop never knows a handle
whose socket is gone, and knows none at the end: `uv_loop_close` succeeds. -/
theorem client_empties_the_loop {signal : Signal Result Exception}
    {t : Trail State Act Leaf Result Exception}
    (executed : Exec (Goes step (within Created Completes)) Client.glbSnd (.start init) signal t) :
    run step init t.acts = some t.state ∧ Along step Managed init t.acts ∧
      (∀ s, Visits step init t.acts s → Safe s) ∧ t.state.handles = [] ∧
      uvLoopClose t.state = 0 := by
  have start : Fits .unborn init := only_none.symm
  have stands := wp_iff.mp (SocketOrder.glbSnd_ordered completes_kept settles start)
  obtain ⟨stage, ordered, -, finished⟩ := stands signal t executed
  obtain ⟨reached, along, fits⟩ := executed_along completes_kept start executed ordered
  have managed : Along step Managed init t.acts := along.mono fun _ _ meets => meets.1
  have finishes : Along step LoopHandles.Finished init t.acts :=
    along.mono fun _ _ meets => meets.2
  have empty := Fits.handles fits finished
  exact ⟨reached, managed, fun s visited => (exact_visited managed finishes visited).safe, empty,
    uvLoopClose_eq_zero.mpr empty⟩

/-- The steps of a client whose connection is refused, and its senders. -/
def refused : List Act :=
  [.construct 0, .createConnect 0, .continueConnect 0 true, .startClose 0 true, .closeCallback 0,
    .destroy 0]

def refusedCalls : List (Leaf × Signal Result Exception) :=
  [(.lookupIp, .value (.ips [Net.ipv4 127 0 0 1])), (.construct, .value (.value .unit)),
    (.connect (Net.ipv4 127 0 0 1), Client.completes (uvError (-111))),
    (.close, .value (.value .unit)), (.destroy, .value (.value .unit))]

/-- What is left behind by the first of them. -/
def left (steps senders : Nat) : Trail State Act Leaf Result Exception :=
  ⟨(run step init (refused.take steps)).getD init, refused.take steps, refusedCalls.take senders⟩

theorem client_empties_the_loop_refused :
    ∃ signal t, Exec (Goes step (within Created Completes)) Client.glbSnd (.start init) signal t ∧
      t.acts = refused ∧ (∀ s, Visits step init t.acts s → Safe s) ∧ uvLoopClose t.state = 0 := by
  have lookedUp : Goes step (within Created Completes) .lookupIp (.start init)
      (.value (.ips [Net.ipv4 127 0 0 1])) (left 0 1) :=
    ⟨[], rfl, ⟨.lookupIp nofun, nofun⟩, rfl, rfl⟩
  have constructed : Goes step (within Created Completes) .construct (left 0 1)
      (.value (.value .unit)) (left 1 2) :=
    ⟨_, rfl, ⟨.construct, by simp [Created]⟩, rfl, rfl⟩
  have connected : Goes step (within Created Completes) (.connect (Net.ipv4 127 0 0 1)) (left 1 2)
      (Client.completes (uvError (-111))) (left 3 3) :=
    ⟨_, rfl, ⟨@Completes.connect _ _ _ [] [] true _ nofun (by nofun), by simp [Created]⟩, rfl, rfl⟩
  have closed : Goes step (within Created Completes) .close (left 3 3) (.value (.value .unit))
      (left 5 4) :=
    ⟨_, rfl, ⟨@Completes.closed _ _ [] true nofun, by simp [Created]⟩, rfl, rfl⟩
  have destroyed : Goes step (within Created Completes) .destroy (left 5 4) (.value (.value .unit))
      (left 6 5) :=
    ⟨_, rfl, ⟨@Completes.destroy _ _ [] nofun, by simp [Created]⟩, rfl, rfl⟩
  have executed : ∃ signal t, Exec (Goes step (within Created Completes)) Client.glbSnd
      (.start init) signal t ∧ t.acts = refused :=
    ⟨_, _, Exec.andLet (.leaf lookedUp) (Exec.letValueWith constructed (Exec.letError
      (Exec.andLet_error (Exec.andLet_error (Exec.andLet_error (.leaf connected))))
      (Exec.andThen (.leaf closed))) destroyed), rfl⟩
  obtain ⟨signal, t, executed, acts⟩ := executed
  obtain ⟨-, -, safe, -, ends⟩ := client_empties_the_loop executed
  exact ⟨signal, t, executed, acts, safe, ends⟩

end PatBase.Runtime.ClientLoop
