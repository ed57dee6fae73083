/-
# PatBase.Runtime.LoopHandles -- the sockets that the loop knows

A handle that `uv_tcp_init_ex` has initialised stands in the handle queue of its loop
until the callback of `uv_close`, and the loop goes on to use it through the address it
was given: that of `handle_` inside the `TCPSocket`.  The destructor of tcp_socket.cc
lets a closing handle go, although the loop still knows it.  `State` puts the queue
beside the sockets of `SocketLifetime`.

* `no_handle_dangles_iff`: the loop never knows the handle of a socket that is gone,
  exactly if no socket is destroyed while its Close is under way; then the queue is that
  of the live sockets that are connected or closing, each once, and `uv_loop_close` in
  `~context` finds it empty exactly if there is none of them.
-/
import PatBase.Runtime.SocketLifetime
import Mathlib.Data.List.Nodup

namespace PatBase.Runtime.LoopHandles

open PatBase.Lib.Machine PatBase.Lib.Objects
open PatBase.Runtime.SocketLifetime (Act Phase Socket Truthful uvIsClosing)

set_option autoImplicit false

/-! ## State -/

structure State where
  sockets : SocketLifetime.State
  /-- `handle_queue`, without the wake-up pipe. -/
  handles : List Nat

def init : State := ⟨SocketLifetime.init, []⟩

/-- What libuv does to the queue: `uv_tcp_init_ex` takes its handle off again where it
cannot make a socket, and `uv__finish_close` for good. -/
def queued (handles : List Nat) : Act → List Nat
  | .continueConnect id created => if created then handles ++ [id] else handles
  | .closeCallback id => handles.erase id
  | _ => handles

def step (s : State) (a : Act) : Option State :=
  (SocketLifetime.step s.sockets a).map fun sockets => ⟨sockets, queued s.handles a⟩

def UV_EBUSY : Int := -16

/-- `uv_loop_close`, of a loop whose pipe is closed. -/
def uvLoopClose (s : State) : Int := if s.handles = [] then 0 else UV_EBUSY

/-! ## Discipline -/

/-- What libuv asks of its callers: a handle is initialised when the loop does not know
it, and closed only if it was. -/
def Managed (s : State) : Act → Prop
  | .continueConnect id _ => ∀ socket, s.sockets id = some socket → ¬ socket.phase.Registered
  | .startClose id _ | .shutdownCallback id =>
      ∀ socket, s.sockets id = some socket → socket.phase ≠ .refused
  | _ => True

/-- A socket is destroyed after its Close has completed, or before there was one. -/
def Finished (s : State) : Act → Prop
  | .destroy id => ∀ socket, s.sockets id = some socket → socket.phase ≠ .closing
  | _ => True

/-! ## The invariant -/

/-- The socket is alive and registered. -/
def Knows (sockets : SocketLifetime.State) (id : Nat) : Prop :=
  ∃ socket, sockets id = some socket ∧ socket.phase.Registered

/-- The queue is that of the registered sockets. -/
structure Exact (s : State) : Prop where
  truthful : All Truthful s.sockets
  nodup : s.handles.Nodup
  handles : ∀ id, id ∈ s.handles ↔ Knows s.sockets id

section Steps

variable {s s' : State} {a : Act} {socket after : Socket} {id : Nat}
  {sockets sockets' : SocketLifetime.State}

instance (phase : Phase) : Decidable phase.Registered := inferInstanceAs (Decidable (_ ∨ _))

theorem uvClose_registered (truthful : Truthful socket) (made : socket.phase ≠ .refused)
    (looksOpen : uvIsClosing socket.flags = false) (taken : socket.uvClose = some after) :
    after.phase.Registered ∧ socket.phase.Registered := by
  simp only [Socket.uvClose, Option.ite_none_left_eq_some, Option.some.injEq] at taken
  obtain ⟨initialised, rfl⟩ := taken
  refine ⟨.inr rfl, ?_⟩
  have truth := truthful.symm.trans looksOpen
  cases phase : socket.phase with
  | fresh => exact absurd phase initialised
  | refused => exact absurd phase made
  | active => exact .inl rfl
  | closing => exact .inr rfl
  | closed =>
      rw [phase] at truth
      cases truth
  | movedFrom =>
      rw [phase] at truth
      cases truth

theorem closeUnlessClosing_registered (truthful : Truthful socket)
    (made : socket.phase ≠ .refused) (taken : socket.closeUnlessClosing = some after) :
    after.phase.Registered ↔ socket.phase.Registered := by
  unfold Socket.closeUnlessClosing at taken
  split at taken
  · rename_i looksOpen
    obtain ⟨registered, before⟩ := uvClose_registered truthful made looksOpen taken
    exact ⟨fun _ => before, fun _ => registered⟩
  · cases taken
    exact Iff.rfl

/-- Only a Connect registers a handle, and only a close callback takes it off. -/
theorem act_registered (truthful : Truthful socket)
    (made : ∀ id, (∃ accepted, a = .startClose id accepted) ∨ a = .shutdownCallback id →
      socket.phase ≠ .refused)
    (taken : socket.act a = some after)
    (neither : ∀ id, (∀ created, a ≠ .continueConnect id created) ∧ a ≠ .closeCallback id) :
    after.phase.Registered ↔ socket.phase.Registered := by
  cases a with
  | construct id => cases taken
  | moveConstruct other this => cases taken
  | destroy id => cases taken
  | createConnect id =>
      cases taken
      exact Iff.rfl
  | continueConnect id created => exact absurd rfl ((neither id).1 created)
  | closeCallback id => exact absurd rfl (neither id).2
  | readWrite id others writeQueueSize =>
      cases taken
      unfold Socket.readWrite
      split <;> exact Iff.rfl
  | startClose id accepted =>
      simp only [Socket.act, Socket.startClose] at taken
      split at taken
      · cases taken
        cases accepted <;> exact Iff.rfl
      · exact closeUnlessClosing_registered truthful (made id (.inl ⟨accepted, rfl⟩)) taken
  | shutdownCallback id =>
      simp only [Socket.act, Socket.shutdownCallback, Option.ite_none_right_eq_some] at taken
      have called : Truthful { socket with shutdowns := socket.shutdowns - 1 } := truthful
      have initialised : ({ socket with shutdowns := socket.shutdowns - 1 } : Socket).phase ≠
          .refused := made id (.inr rfl)
      have same := closeUnlessClosing_registered called initialised taken.2
      exact same

/-- Who is known after one socket was set. -/
theorem knows_update {other : Nat} :
    Knows (Function.update sockets id (some socket)) other ↔
      (other = id ∧ socket.phase.Registered) ∨ (other ≠ id ∧ Knows sockets other) := by
  constructor
  · rintro ⟨found, has, registered⟩
    rcases update_eq_some has with ⟨same, rfl⟩ | ⟨apart, before⟩
    · exact .inl ⟨same, registered⟩
    · exact .inr ⟨apart, found, before, registered⟩
  · rintro (⟨rfl, registered⟩ | ⟨apart, found, has, registered⟩)
    · exact ⟨socket, Function.update_self .., registered⟩
    · exact ⟨found, (Function.update_of_ne apart ..).trans has, registered⟩

/-- A socket whose registration did not change. -/
theorem knows_update_same {other : Nat}
    (same : after.phase.Registered ↔ Knows sockets id) :
    Knows (Function.update sockets id (some after)) other ↔ Knows sockets other := by
  rw [knows_update]
  by_cases here : other = id
  · subst here
    simp [same]
  · simp [here]

theorem knows_of_live (live : sockets id = some socket) :
    Knows sockets id ↔ socket.phase.Registered := by
  constructor
  · rintro ⟨found, has, registered⟩
    obtain rfl := Option.some.inj (live.symm.trans has)
    exact registered
  · intro registered
    exact ⟨socket, live, registered⟩

theorem onSocket_eq_some (taken : SocketLifetime.onSocket sockets id a = some sockets') :
    ∃ socket after, sockets id = some socket ∧ socket.act a = some after ∧
      sockets' = Function.update sockets id (some after) := by
  unfold SocketLifetime.onSocket at taken
  split at taken
  · rename_i socket live
    obtain ⟨after, acted, rfl⟩ := Option.map_eq_some_iff.mp taken
    exact ⟨socket, after, live, acted, rfl⟩
  · cases taken

theorem knows_of_free (free : sockets id = none) : ¬ Knows sockets id := by
  rintro ⟨socket, has, -⟩
  cases free.symm.trans has

/-- A step that leaves the queue and everybody's registration alone. -/
theorem Exact.congr (exact_ : Exact s) (truthful : All Truthful sockets')
    (same : ∀ id, Knows sockets' id ↔ Knows s.sockets id) : Exact ⟨sockets', s.handles⟩ :=
  ⟨truthful, exact_.nodup, fun id => (exact_.handles id).trans (same id).symm⟩

/-- An act on one socket that is neither a Connect's continuation nor a close callback. -/
theorem onSocket_exact (exact_ : Exact s) (truthful : All Truthful sockets')
    (made : ∀ socket, s.sockets id = some socket →
      ∀ id, (∃ accepted, a = .startClose id accepted) ∨ a = .shutdownCallback id →
        socket.phase ≠ .refused)
    (neither : ∀ id, (∀ created, a ≠ .continueConnect id created) ∧ a ≠ .closeCallback id)
    (taken : SocketLifetime.onSocket s.sockets id a = some sockets') :
    Exact ⟨sockets', s.handles⟩ := by
  obtain ⟨socket, after, live, acted, rfl⟩ := onSocket_eq_some taken
  refine exact_.congr truthful fun other => knows_update_same ?_
  rw [knows_of_live live]
  exact act_registered (exact_.truthful id socket live) (made socket live) acted neither

/-- A Connect's continuation registers its handle, if the socket could be made. -/
theorem continueConnect_exact {created : Bool} (exact_ : Exact s) (truthful : All Truthful sockets')
    (unknown : ∀ socket, s.sockets id = some socket → ¬ socket.phase.Registered)
    (taken : SocketLifetime.onSocket s.sockets id (.continueConnect id created) = some sockets') :
    Exact ⟨sockets', queued s.handles (.continueConnect id created)⟩ := by
  obtain ⟨socket, after, live, acted, rfl⟩ := onSocket_eq_some taken
  have outside : id ∉ s.handles := by
    rw [exact_.handles, knows_of_live live]
    exact unknown socket live
  simp only [Socket.act, Socket.continueConnect, Option.ite_none_right_eq_some,
    Option.some.injEq] at acted
  obtain ⟨-, rfl⟩ := acted
  cases created with
  | false =>
      refine exact_.congr truthful fun other => knows_update_same ?_
      rw [← exact_.handles]
      refine ⟨fun registered => ?_, fun there => absurd there outside⟩
      rcases registered with h | h <;> cases h
  | true =>
      refine ⟨truthful, ?_, fun other => ?_⟩
      · show (s.handles ++ [id]).Nodup
        refine List.nodup_append.mpr ⟨exact_.nodup, List.pairwise_singleton .., ?_⟩
        rintro known member _ new rfl
        exact outside (List.mem_singleton.mp new ▸ member)
      · rw [knows_update]
        show other ∈ s.handles ++ [id] ↔ _
        rw [List.mem_append, List.mem_singleton, exact_.handles]
        by_cases here : other = id
        · simp [here, Phase.Registered]
        · simp [here]

/-- The close callback takes the handle off. -/
theorem closeCallback_exact (exact_ : Exact s) (truthful : All Truthful sockets')
    (taken : SocketLifetime.onSocket s.sockets id (.closeCallback id) = some sockets') :
    Exact ⟨sockets', queued s.handles (.closeCallback id)⟩ := by
  obtain ⟨socket, after, live, acted, rfl⟩ := onSocket_eq_some taken
  simp only [Socket.act, Socket.closeCallback, Option.ite_none_right_eq_some,
    Option.some.injEq] at acted
  obtain ⟨-, rfl⟩ := acted
  refine ⟨truthful, exact_.nodup.erase id, fun other => ?_⟩
  rw [knows_update]
  show other ∈ s.handles.erase id ↔ _
  rw [exact_.nodup.mem_erase_iff, exact_.handles]
  by_cases here : other = id
  · simp [here, Phase.Registered]
  · simp [here]

theorem step_exact (exact_ : Exact s) (managed : Managed s a) (finished : Finished s a)
    (taken : step s a = some s') : Exact s' := by
  obtain ⟨sockets', moved, rfl⟩ := Option.map_eq_some_iff.mp taken
  have truthful := SocketLifetime.step_truthful exact_.truthful moved
  cases a with
  | construct id =>
      simp only [SocketLifetime.step] at moved
      split at moved
      · rename_i free
        cases moved
        refine exact_.congr truthful fun other => knows_update_same ?_
        refine ⟨fun registered => ?_, fun known => absurd known (knows_of_free free)⟩
        rcases registered with h | h <;> cases h
      · cases moved
  | moveConstruct other this =>
      simp only [SocketLifetime.step] at moved
      split at moved
      · rename_i socket live free
        simp only [Option.ite_none_left_eq_some, Option.some.injEq] at moved
        obtain ⟨unregistered, rfl⟩ := moved
        have target : ∀ id, Knows (Function.update s.sockets this (some socket.moveTarget)) id ↔
            Knows s.sockets id := fun id =>
          knows_update_same ⟨fun registered => absurd registered unregistered, fun known =>
            absurd known (knows_of_free free)⟩
        refine exact_.congr truthful fun id => (knows_update_same ?_).trans (target id)
        rw [target other, knows_of_live live]
        refine ⟨fun registered => ?_, fun registered => absurd registered unregistered⟩
        rcases registered with h | h <;> cases h
      · cases moved
  | destroy id =>
      simp only [SocketLifetime.step] at moved
      split at moved
      · rename_i socket live
        simp only [Option.ite_none_left_eq_some, Option.some.injEq] at moved
        obtain ⟨closing, rfl⟩ := moved
        -- what may be destroyed and is not closing, the loop does not know
        have unknown : ¬ Knows s.sockets id := by
          rw [knows_of_live live]
          rintro (active | underWay)
          · have truth := exact_.truthful id socket live
            rw [Truthful, active] at truth
            exact closing truth
          · exact finished socket live underWay
        refine exact_.congr truthful fun other => ?_
        constructor
        · rintro ⟨found, has, registered⟩
          exact ⟨found, of_erased has, registered⟩
        · rintro ⟨found, has, registered⟩
          have apart : other ≠ id := by
            rintro rfl
            exact unknown ⟨found, has, registered⟩
          exact ⟨found, (Function.update_of_ne apart ..).trans has, registered⟩
      · cases moved
  | createConnect id => exact onSocket_exact exact_ truthful (by simp) (by simp) moved
  | readWrite id others writeQueueSize =>
      exact onSocket_exact exact_ truthful (by simp) (by simp) moved
  | startClose id accepted =>
      exact onSocket_exact exact_ truthful (fun socket live _ _ => managed socket live) (by simp)
        moved
  | shutdownCallback id =>
      exact onSocket_exact exact_ truthful (fun socket live _ _ => managed socket live) (by simp)
        moved
  | continueConnect id created => exact continueConnect_exact exact_ truthful managed moved
  | closeCallback id => exact closeCallback_exact exact_ truthful moved

theorem init_exact : Exact init :=
  ⟨all_none, List.nodup_nil, fun _ => ⟨nofun, fun known => absurd known (knows_of_free rfl)⟩⟩

end Steps

/-! ## Runs -/

/-- Every handle of the queue is that of a live socket. -/
def Safe (s : State) : Prop := ∀ id ∈ s.handles, ∃ socket, s.sockets id = some socket

section Runs

variable {s s' t : State} {a : Act} {acts : List Act}

theorem Exact.safe (exact_ : Exact s) : Safe s := by
  intro id member
  obtain ⟨socket, live, -⟩ := (exact_.handles id).mp member
  exact ⟨socket, live⟩

/-- A socket that is destroyed while its Close is under way leaves its handle behind. -/
theorem finished_of_safe (exact_ : Exact s) (taken : step s a = some s') (safe : Safe s') :
    Finished s a := by
  cases a with
  | destroy id =>
      intro socket live underWay
      have member : id ∈ s.handles := (exact_.handles id).mpr ⟨socket, live, .inr underWay⟩
      obtain ⟨sockets', moved, rfl⟩ := Option.map_eq_some_iff.mp taken
      obtain ⟨found, has⟩ := safe id member
      simp only [SocketLifetime.step, live, Option.ite_none_left_eq_some,
        Option.some.injEq] at moved
      obtain ⟨-, rfl⟩ := moved
      have gone : Function.update s.sockets id none id = some found := has
      rw [Function.update_self] at gone
      cases gone
  | construct id => trivial
  | createConnect id => trivial
  | continueConnect id created => trivial
  | readWrite id others writeQueueSize => trivial
  | startClose id accepted => trivial
  | shutdownCallback id => trivial
  | closeCallback id => trivial
  | moveConstruct other this => trivial

theorem exact_visited (managed : Along step Managed init acts)
    (finished : Along step Finished init acts) (visited : Visits step init acts t) : Exact t :=
  (managed.and finished).invariant_visited
    (fun _ _ _ exact_ meets taken => step_exact exact_ meets.1 meets.2 taken) init_exact visited

theorem along_finished (managed : Along step Managed init acts)
    (reached : run step init acts = some s)
    (safe : ∀ t, Visits step init acts t → Safe t) : Along step Finished init acts := by
  have both : Along step Managed init acts → (∀ t, Visits step init acts t → Safe t) →
      Along step Finished init acts ∧ Exact s := by
    refine run_history (P := fun acts s => Along step Managed init acts →
      (∀ t, Visits step init acts t → Safe t) → Along step Finished init acts ∧ Exact s)
      (fun _ _ => ⟨along_nil, init_exact⟩) ?_ reached
    intro before t a t' prior ih taken managed safe
    obtain ⟨managedBefore, last⟩ := (along_snoc prior).mp managed
    obtain ⟨finished, exact_⟩ := ih managedBefore fun u visited => safe u visited.append
    have after : Safe t' := safe t' (visits_last (run_snoc_eq_some.mpr ⟨t, prior, taken⟩))
    have meets := finished_of_safe exact_ taken after
    exact ⟨(along_snoc prior).mpr ⟨finished, meets⟩, step_exact exact_ last meets taken⟩
  exact (both managed safe).1

theorem uvLoopClose_eq_zero : uvLoopClose s = 0 ↔ s.handles = [] := by
  unfold uvLoopClose
  split
  · rename_i empty
    exact ⟨fun _ => empty, fun _ => rfl⟩
  · rename_i some_
    exact ⟨fun busy => absurd busy (by decide), fun empty => absurd empty some_⟩

end Runs

/-- **No handle dangles.**  In a run that initialises no handle the loop knows and closes
none that was refused, the loop knows handles of live sockets only, in every state, if
and only if no socket is destroyed while its Close is under way -- which the destructor
lets happen.  Then the queue holds the connected and closing sockets, each once, and
`uv_loop_close` succeeds exactly if there are none. -/
theorem no_handle_dangles_iff {acts : List Act} {s : State}
    (managed : Along step Managed init acts) (reached : run step init acts = some s) :
    ((∀ t, Visits step init acts t → Safe t) ↔ Along step Finished init acts) ∧
      (Along step Finished init acts → ∀ t, Visits step init acts t →
        t.handles.Nodup ∧ (∀ id, id ∈ t.handles ↔ Knows t.sockets id) ∧
          (uvLoopClose t = 0 ↔ ∀ id, ¬ Knows t.sockets id)) := by
  refine ⟨⟨along_finished managed reached, fun finished t visited =>
    (exact_visited managed finished visited).safe⟩, fun finished t visited => ?_⟩
  have exact_ := exact_visited managed finished visited
  refine ⟨exact_.nodup, exact_.handles, ?_⟩
  rw [uvLoopClose_eq_zero, List.eq_nil_iff_forall_not_mem]
  simp only [exact_.handles]

/-- A socket that is connected, closed and, when the Close has completed, destroyed. -/
def session : List Act :=
  [.construct 0, .createConnect 0, .continueConnect 0 true, .startClose 0 true, .closeCallback 0,
    .destroy 0]

/-- Every step of it is managed. -/
theorem session_managed : Along step Managed init session := by
  refine along_cons trivial rfl (along_cons trivial rfl (along_cons ?_ rfl (along_cons ?_ rfl
    (along_cons trivial rfl (along_cons trivial rfl trivial)))))
  · intro socket live registered
    cases live
    rcases registered with h | h <;> cases h
  · intro socket live
    cases live
    nofun

theorem no_handle_dangles_iff_session :
    ∃ s, run step init session = some s ∧ (∀ t, Visits step init session t → Safe t) ∧
      uvLoopClose s = 0 := by
  have reached : run step init session = some _ := rfl
  have finished : Along step Finished init session := by
    refine along_cons trivial rfl (along_cons trivial rfl (along_cons trivial rfl (along_cons
      trivial rfl (along_cons trivial rfl (along_cons ?_ rfl trivial)))))
    intro socket live
    cases live
    nofun
  exact ⟨_, reached, (no_handle_dangles_iff session_managed reached).1.mpr finished, rfl⟩

/-- Destroyed before its close callback: the destructor says nothing, and the loop keeps
the address. -/
example : (run step init [.construct 0, .createConnect 0, .continueConnect 0 true,
    .startClose 0 true, .destroy 0]).map (fun s => (s.handles, (s.sockets 0).isSome)) =
      some ([0], false) := rfl

end PatBase.Runtime.LoopHandles
