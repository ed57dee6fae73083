/-
# PatBase.Runtime.SlotPipelines -- pipelines on the one `data` slot of a socket

Connect, Read and Close overwrite each other's pointer in the handle, and none of them
looks (`TcpSocket`).  A pipeline starts each of its senders when the one before has
completed, and that is enough: `Completes` says which steps of the `StreamHandle` machine
a sender lets pass until then -- its own, the callbacks of libuv, and the traffic on the
stream -- and a sender that libuv refused never completes.

* `pipelines_keep_the_slot`: in every execution of every pipeline whose senders keep to the
  `order`, each callback reaches the object it was installed for, and each Read and Close
  that was started has completed exactly once.
* `client_keeps_the_slot`: so it is in every execution of the network test of test.cc.
-/
import PatBase.Runtime.SocketOrder
import PatBase.Runtime.TcpSocket

namespace PatBase.Runtime.SlotPipelines

open PatBase.Lib.Machine PatBase.Lib.Signals PatBase.Lib.Trails
open PatBase.Runtime.SocketOrder (Role Stage order)
open PatBase.Runtime.StreamHandle
open PatBase.Runtime.TcpSocket (construct OneClose Exclusive Faithful Holder Reads)

set_option autoImplicit false

universe u v w

/-! ## What the senders do -/

/-- What libuv and the peer do. -/
def Environment : Act → Prop
  | .allocCallback | .readCallback _ | .shutdownCallback _ | .closeCallback | .traffic _ _ => True
  | _ => False

/-- While no Write is under way nothing is queued. -/
def Calm (a : Act) : Prop :=
  Environment a ∧ ∀ writable writeQueueSize, a = .traffic writable writeQueueSize →
    writeQueueSize = 0

section Completes

variable {L : Type u} {V : Type v} {X : Type w}

/-- The operation has completed, with this signal first. -/
def Answers (value : Value → V) (failure : Failure → X) (s : State) (target : Target)
    (signal : Signal V X) : Prop :=
  ∃ completion, (s.signals target).head? = some completion ∧
    signal = completion.1.signal value failure

/-- The steps of each sender from its start to its completion. -/
inductive Completes (role : L → Role) (value : Value → V) (failure : Failure → X) :
    L → State → List Act → Signal V X → State → Prop where
  | other {l : L} {s s' : State} {acts : List Act} {signal : Signal V X}
      (nothing : role l = .other ∨ role l = .construct ∨ role l = .destroy)
      (calm : ∀ a ∈ acts, Calm a) : Completes role value failure l s acts signal s'
  | call {l : L} {s s' : State} {acts : List Act} {signal : Signal V X} (call : role l = .call)
      (calm : ∀ a ∈ acts, Calm a) (completed : signal ≠ .done) :
      Completes role value failure l s acts signal s'
  /-- The `schedule()` of Connect finds that stop was requested. -/
  | cancelled {l : L} {s s' : State} {acts : List Act} (connect : role l = .connect)
      (calm : ∀ a ∈ acts, Calm a) :
      Completes role value failure l s (.createConnect :: acts) .done s'
  | connect {l : L} {s s' : State} {before after : List Act} {signal : Signal V X}
      (connect : role l = .connect) (calm : ∀ a ∈ before ++ after, Calm a)
      (completed : signal ≠ .done) :
      Completes role value failure l s (.createConnect :: (before ++ .continueConnect :: after))
        signal s'
  /-- A Write has a request of its own; when it calls back, nothing is queued. -/
  | write {l : L} {s s' : State} {acts : List Act} {signal : Signal V X} (write : role l = .write)
      (environment : ∀ a ∈ acts, Environment a) (sent : s'.handle.writeQueueSize = 0)
      (completed : signal ≠ .done) : Completes role value failure l s acts signal s'
  | read {l : L} {s s' : State} {acts : List Act} {signal : Signal V X} {op : Nat} {rc : Int}
      (read : role l = .read) (new : .read op ∉ s.started) (calm : ∀ a ∈ acts, Calm a)
      (answers : Answers value failure s' (.read op) signal) :
      Completes role value failure l s (.startRead op rc :: acts) signal s'
  | close {l : L} {s s' : State} {acts : List Act} {signal : Signal V X} {op : Nat} {rc : Int}
      (close : role l = .close) (new : .close op ∉ s.started) (calm : ∀ a ∈ acts, Calm a)
      (answers : Answers value failure s' (.close op) signal) :
      Completes role value failure l s (.startClose op rc :: acts) signal s'

end Completes

/-! ## The states between the senders -/

/-- Every Read and Close so far has completed, once, and no other has. -/
structure Answered (s : State) : Prop where
  once : ∀ target ∈ s.started, (s.signals target).length = 1
  unstarted : ∀ target, target ∉ s.started → s.signals target = []

/-- Libuv owes no callback. -/
structure Still (s : State) : Prop where
  shutdown : s.shutdown = none
  phase : s.handle.phase = .active
  reading : s.handle.reading = none

/-- Nothing is pending but Connects, and nothing has been closed. -/
structure Idle (connects : Nat) (s : State) : Prop where
  still : Still s
  answered : Answered s
  unclosed : ∀ op, .close op ∉ s.started
  connects : s.connects = connects

/-- An idle handle with nothing queued. -/
structure Open (connects : Nat) (s : State) : Prop where
  idle : Idle connects s
  sent : s.handle.writeQueueSize = 0

structure Closed (s : State) : Prop where
  answered : Answered s
  shutdown : s.shutdown = none
  phase : s.handle.phase = .closed
  reading : s.handle.reading = none

def Fits : Stage → State → Prop
  | .unborn, s | .fresh, s | .connected, s => Open 0 s
  | .cancelled, s => Open 1 s
  | .closed, s => Closed s
  | .gone, s => Open 1 s ∨ Closed s

/-- The discipline of `TcpSocket`. -/
def Disciplined (s : State) (a : Act) : Prop := OneClose s a ∧ Exclusive s a

section Senders

variable {s s' : State} {a : Act} {acts : List Act} {n op : Nat} {rc : Int} {stage : Stage}

theorem environment_disciplined (environment : Environment a) : Disciplined s a := by
  cases a with
  | allocCallback => exact ⟨trivial, trivial⟩
  | readCallback nread => exact ⟨trivial, trivial⟩
  | shutdownCallback status => exact ⟨trivial, trivial⟩
  | closeCallback => exact ⟨trivial, trivial⟩
  | traffic writable writeQueueSize => exact ⟨trivial, trivial⟩
  | _ => cases environment

/-- What the environment keeps while it goes on alone. -/
theorem environment_run {P : Act → Prop} {I : State → Prop}
    (environment : ∀ a, P a → Environment a)
    (kept : ∀ s a s', I s → P a → step s a = some s' → I s') (all : ∀ a ∈ acts, P a)
    (start : I s) (reached : run step s acts = some s') : Along step Disciplined s acts ∧ I s' :=
  along_kept (fun s a s' holds usual taken =>
    ⟨environment_disciplined (environment a usual), kept s a s' holds usual taken⟩) all start
    reached

/-- There is only traffic then. -/
theorem Still.traffic (still : Still s) (environment : Environment a)
    (taken : step s a = some s') : ∃ writable writeQueueSize, a = .traffic writable writeQueueSize ∧
      s' = { s with
        handle := { s.handle with writable := writable, writeQueueSize := writeQueueSize } } := by
  cases Step.of_step taken with
  | allocCallback op reading => cases still.reading.symm.trans reading
  | readCallback op nread reading => cases still.reading.symm.trans reading
  | shutdownCallback op status asked => cases still.shutdown.symm.trans asked
  | closeCallback op closing => cases still.phase.symm.trans closing
  | traffic writable writeQueueSize => exact ⟨writable, writeQueueSize, rfl, rfl⟩
  | _ => cases environment

theorem idle_kept (idle : Idle n s) (environment : Environment a) (taken : step s a = some s') :
    Idle n s' := by
  obtain ⟨writable, writeQueueSize, -, rfl⟩ := idle.still.traffic environment taken
  exact ⟨⟨idle.still.shutdown, idle.still.phase, idle.still.reading⟩,
    ⟨idle.answered.once, idle.answered.unstarted⟩, idle.unclosed, idle.connects⟩

theorem open_kept (opened : Open n s) (calm : Calm a) (taken : step s a = some s') : Open n s' := by
  obtain ⟨writable, writeQueueSize, rfl, rfl⟩ := opened.idle.still.traffic calm.1 taken
  exact ⟨idle_kept opened.idle calm.1 taken, calm.2 writable writeQueueSize rfl⟩

/-- On a closed handle nothing happens. -/
theorem closed_ends (closed : Closed s) (environment : Environment a) : step s a ≠ some s' := by
  intro taken
  cases Step.of_step taken with
  | allocCallback op reading => cases closed.reading.symm.trans reading
  | readCallback op nread reading => cases closed.reading.symm.trans reading
  | shutdownCallback op status asked => cases closed.shutdown.symm.trans asked
  | closeCallback op closing => cases closed.phase.symm.trans closing
  | traffic writable writeQueueSize active => cases closed.phase.symm.trans active
  | _ => cases environment

theorem fits_kept (fits : Fits stage s) (calm : Calm a) (taken : step s a = some s') :
    Fits stage s' := by
  cases stage with
  | unborn => exact open_kept (n := 0) fits calm taken
  | fresh => exact open_kept (n := 0) fits calm taken
  | connected => exact open_kept (n := 0) fits calm taken
  | cancelled => exact open_kept (n := 1) fits calm taken
  | closed => exact absurd taken (closed_ends fits calm.1)
  | gone =>
      rcases fits with cancelled | closed
      · exact .inl (open_kept cancelled calm taken)
      · exact absurd taken (closed_ends closed calm.1)

/-! ## Reads -/

/-- A Read that libuv accepted waits for its callback, or has completed. -/
structure Serving (op : Nat) (s : State) : Prop where
  others : ∀ target ∈ s.started, target ≠ .read op → (s.signals target).length = 1
  unstarted : ∀ target, target ∉ s.started → s.signals target = []
  member : .read op ∈ s.started
  unclosed : ∀ op, .close op ∉ s.started
  connects : s.connects = 0
  shutdown : s.shutdown = none
  phase : s.handle.phase = .active
  sent : s.handle.writeQueueSize = 0
  own : s.handle.reading = some op ∧ s.handle.data = some (.read op) ∧ s.signals (.read op) = [] ∨
    s.handle.reading = none ∧ (s.signals (.read op)).length = 1

theorem startRead_serving (opened : Open 0 s) (new : .read op ∉ s.started) (accepted : 0 ≤ rc) :
    Serving op (startRead s op rc) := by
  have result : startRead s op rc = { takeSlot s (.read op) with
      handle := { (takeSlot s (.read op)).handle with reading := some op } } := if_pos accepted
  have among : ∀ target, target ∈ (startRead s op rc).started ↔
      target ∈ s.started ∨ target = .read op := by
    intro target
    rw [result]
    show target ∈ s.started ++ [.read op] ↔ _
    simp
  have signals : (startRead s op rc).signals = s.signals := by
    rw [result]
    rfl
  obtain ⟨⟨still, answered, unclosed, connects⟩, sent⟩ := opened
  refine ⟨fun target member other => ?_, fun target outside => ?_, (among _).mpr (.inr rfl),
    fun other member => ?_, ?_, ?_, ?_, ?_, .inl ⟨?_, ?_, ?_⟩⟩
  · rw [signals]
    rcases (among target).mp member with old | new
    · exact answered.once target old
    · exact absurd new other
  · rw [signals]
    exact answered.unstarted target fun old => outside ((among target).mpr (.inl old))
  · rcases (among _).mp member with old | impossible
    · exact unclosed other old
    · cases impossible
  · rw [result]
    exact connects
  · rw [result]
    exact still.shutdown
  · rw [result]
    exact still.phase
  · rw [result]
    exact sent
  · rw [result]
  · rw [result]
    rfl
  · rw [signals]
    exact answered.unstarted _ new

theorem serving_kept (serving : Serving op s) (calm : Calm a) (taken : step s a = some s') :
    Serving op s' := by
  have same : ∀ reader, s.handle.reading = some reader → reader = op ∧
      s.handle.data = some (.read op) ∧ s.signals (.read op) = [] := by
    intro reader reading
    rcases serving.own with ⟨waits, data, pending⟩ | ⟨idle, -⟩
    · exact ⟨Option.some.inj (reading.symm.trans waits), data, pending⟩
    · cases idle.symm.trans reading
  cases Step.of_step taken with
  | allocCallback reader reading =>
      obtain ⟨rfl, data, pending⟩ := same reader reading
      rw [data, access_own pending]
      exact serving
  | readCallback reader nread reading =>
      obtain ⟨rfl, data, pending⟩ := same reader reading
      have result : readCallback s reader nread =
          signal (uvReadStop s) (.read reader) (Operation.streamReadResult nread) := by
        have first : access (uvReadStop s) (.read reader) (some (.read reader)) = uvReadStop s :=
          access_own pending
        have slot : (uvReadStop s).handle.data = some (.read reader) := data
        simp only [readCallback, data, first, slot]
      rw [result]
      refine ⟨fun target member other => ?_, fun target outside => ?_, serving.member,
        serving.unclosed, serving.connects, serving.shutdown, serving.phase, serving.sent,
        .inr ⟨rfl, ?_⟩⟩
      · rw [signal_signals_other other]
        exact serving.others target member other
      · have other : target ≠ .read reader := fun same => outside (same ▸ serving.member)
        rw [signal_signals_other other]
        exact serving.unstarted target outside
      · rw [signal_signals_self]
        show (s.signals (.read reader) ++ [_]).length = 1
        rw [pending]
        rfl
  | shutdownCallback closer status asked => cases serving.shutdown.symm.trans asked
  | closeCallback closer closing => cases serving.phase.symm.trans closing
  | traffic writable writeQueueSize =>
      exact ⟨serving.others, serving.unstarted, serving.member, serving.unclosed,
        serving.connects, serving.shutdown, serving.phase, calm.2 writable writeQueueSize rfl,
        serving.own⟩
  | _ => cases calm.1

/-- When it has completed, nothing is pending. -/
theorem Serving.completed (serving : Serving op s) (completed : s.signals (.read op) ≠ []) :
    Open 0 s := by
  rcases serving.own with ⟨-, -, pending⟩ | ⟨idle, one⟩
  · exact absurd pending completed
  · refine ⟨⟨⟨serving.shutdown, serving.phase, idle⟩, ⟨fun target member => ?_,
      serving.unstarted⟩, serving.unclosed, serving.connects⟩, serving.sent⟩
    by_cases same : target = .read op
    · rw [same]
      exact one
    · exact serving.others target member same

/-- A Read that `uv_read_start` refuses never completes. -/
theorem startRead_refused (still : Still s) (pending : s.signals (.read op) = [])
    (refused : ¬ 0 ≤ rc) (calm : ∀ a ∈ acts, Calm a)
    (reached : run step (startRead s op rc) acts = some s') : s'.signals (.read op) = [] := by
  have result : startRead s op rc = takeSlot s (.read op) := if_neg refused
  rw [result] at reached
  have start : Still (takeSlot s (.read op)) ∧
      (takeSlot s (.read op)).signals (.read op) = [] :=
    ⟨⟨still.shutdown, still.phase, still.reading⟩, pending⟩
  refine (environment_run (I := fun s => Still s ∧ s.signals (.read op) = [])
    (fun a calm => calm.1) ?_ calm start reached).2.2
  rintro s a s' ⟨still, pending⟩ calm taken
  obtain ⟨writable, writeQueueSize, -, rfl⟩ := still.traffic calm.1 taken
  exact ⟨⟨still.shutdown, still.phase, still.reading⟩, pending⟩

theorem read_kept (opened : Open 0 s) (new : .read op ∉ s.started) (calm : ∀ a ∈ acts, Calm a)
    (reached : run step s (.startRead op rc :: acts) = some s')
    (completed : s'.signals (.read op) ≠ []) :
    Along step Disciplined s (.startRead op rc :: acts) ∧ Open 0 s' := by
  obtain ⟨s₁, taken, rest⟩ := run_cons_eq_some.mp reached
  cases Step.of_step taken with
  | startRead _ _ accepts =>
      have still := opened.idle.still
      by_cases accepted : 0 ≤ rc
      · obtain ⟨along, serving⟩ := environment_run (I := Serving op) (fun a calm => calm.1)
          (fun _ _ _ serving calm taken => serving_kept serving calm taken) calm
          (startRead_serving opened new accepted) rest
        refine ⟨along_cons ⟨new, ?_⟩ taken along, serving.completed completed⟩
        exact ⟨opened.idle.connects, still.reading, still.shutdown, still.phase, accepted⟩
      · exact absurd (startRead_refused still (opened.idle.answered.unstarted _ new) accepted calm
          rest) completed

/-! ## Closes -/

/-- A Close that has called `uv_close` waits for its callback, or has completed. -/
structure Ending (op : Nat) (s : State) : Prop where
  others : ∀ target ∈ s.started, target ≠ .close op → (s.signals target).length = 1
  unstarted : ∀ target, target ∉ s.started → s.signals target = []
  member : .close op ∈ s.started
  shutdown : s.shutdown = none
  reading : s.handle.reading = none
  own : s.handle.phase = .closing op ∧ s.handle.data = some (.close op) ∧
      s.signals (.close op) = [] ∨
    s.handle.phase = .closed ∧ ∃ phase, s.signals (.close op) = [(.setValue .unit, phase)]

theorem startClose_ending (opened : Open 0 s) (new : .close op ∉ s.started) :
    Ending op (startClose s op rc) := by
  have sent : ¬ s.Unsent := fun unsent => Nat.lt_irrefl 0 (opened.sent ▸ unsent.2)
  rw [startClose_active sent opened.idle.still.phase]
  refine ⟨fun target member other => ?_, fun target outside => ?_,
    List.mem_append_right _ (List.mem_singleton_self _), opened.idle.still.shutdown, rfl,
    .inl ⟨rfl, rfl, opened.idle.answered.unstarted _ new⟩⟩
  · rcases List.mem_append.mp member with old | new
    · exact opened.idle.answered.once target old
    · exact absurd (List.mem_singleton.mp new) other
  · exact opened.idle.answered.unstarted target fun old => outside (List.mem_append_left _ old)

theorem ending_kept (ending : Ending op s) (calm : Calm a) (taken : step s a = some s') :
    Ending op s' := by
  cases Step.of_step taken with
  | allocCallback reader reading => cases ending.reading.symm.trans reading
  | readCallback reader nread reading => cases ending.reading.symm.trans reading
  | shutdownCallback closer status asked => cases ending.shutdown.symm.trans asked
  | traffic writable writeQueueSize active =>
      rcases ending.own with ⟨closing, -⟩ | ⟨closed, -⟩
      · cases closing.symm.trans active
      · cases closed.symm.trans active
  | closeCallback closer closing =>
      rcases ending.own with ⟨closes, data, pending⟩ | ⟨closed, -⟩
      · obtain rfl := Phase.closing.inj (closing.symm.trans closes)
        rw [closeCallback_own pending data]
        refine ⟨fun target member other => ?_, fun target outside => ?_, ending.member,
          ending.shutdown, ending.reading, .inr ⟨rfl, .closed, ?_⟩⟩
        · rw [signal_signals_other other]
          exact ending.others target member other
        · have other : target ≠ .close closer := fun same => outside (same ▸ ending.member)
          rw [signal_signals_other other]
          exact ending.unstarted target outside
        · rw [signal_signals_self]
          show s.signals (.close closer) ++ _ = _
          rw [pending]
          rfl
      · cases closed.symm.trans closing
  | _ => cases calm.1

theorem Ending.completed (ending : Ending op s) (completed : s.signals (.close op) ≠ []) :
    Closed s := by
  rcases ending.own with ⟨-, -, pending⟩ | ⟨closed, phase, one⟩
  · exact absurd pending completed
  · refine ⟨⟨fun target member => ?_, ending.unstarted⟩, ending.shutdown, closed, ending.reading⟩
    by_cases same : target = .close op
    · rw [same, one]
      rfl
    · exact ending.others target member same

/-- A Close of an open handle completes with a value. -/
theorem close_kept (opened : Open 0 s) (new : .close op ∉ s.started) (calm : ∀ a ∈ acts, Calm a)
    (reached : run step s (.startClose op rc :: acts) = some s')
    (completed : s'.signals (.close op) ≠ []) :
    Along step Disciplined s (.startClose op rc :: acts) ∧ Closed s' ∧
      ∃ phase, s'.signals (.close op) = [(.setValue .unit, phase)] := by
  obtain ⟨s₁, taken, rest⟩ := run_cons_eq_some.mp reached
  cases Step.of_step taken with
  | startClose =>
      obtain ⟨along, ending⟩ := environment_run (I := Ending op) (fun a calm => calm.1)
        (fun _ _ _ ending calm taken => ending_kept ending calm taken) calm
        (startClose_ending opened new) rest
      refine ⟨along_cons ⟨opened.idle.unclosed, opened.idle.connects, opened.idle.still.reading⟩
        taken along, ending.completed completed, ?_⟩
      rcases ending.own with ⟨-, -, pending⟩ | ⟨-, one⟩
      · exact absurd pending completed
      · exact one

/-! ## Connects -/

theorem createConnect_kept (opened : Open 0 s) (calm : ∀ a ∈ acts, Calm a)
    (reached : run step s (.createConnect :: acts) = some s') :
    Along step Disciplined s (.createConnect :: acts) ∧ Open 1 s' := by
  obtain ⟨s₁, taken, rest⟩ := run_cons_eq_some.mp reached
  obtain ⟨⟨still, answered, unclosed, connects⟩, sent⟩ := opened
  cases Step.of_step taken with
  | createConnect =>
      have created : Open 1 (createConnect s) :=
        ⟨⟨⟨still.shutdown, still.phase, still.reading⟩, ⟨answered.once, answered.unstarted⟩,
          unclosed, congrArg (· + 1) connects⟩, sent⟩
      obtain ⟨along, opened⟩ := environment_run (I := Open 1) (fun a calm => calm.1)
        (fun _ _ _ opened calm taken => open_kept opened calm taken) calm created rest
      refine ⟨along_cons ⟨trivial, still.reading, still.shutdown, fun op => ?_⟩ taken along, opened⟩
      rw [still.phase]
      nofun

/-- `uv_tcp_init_ex` leaves an open handle. -/
theorem continueConnect_open (opened : Open 1 s) : Open 0 (continueConnect s) := by
  obtain ⟨⟨still, answered, unclosed, connects⟩, sent⟩ := opened
  have none_ : s.connects - 1 = 0 := by omega
  unfold continueConnect
  simp only
  split
  · exact ⟨⟨⟨rfl, rfl, rfl⟩, ⟨answered.once, answered.unstarted⟩, unclosed, none_⟩, rfl⟩
  · exact ⟨⟨⟨rfl, rfl, rfl⟩, ⟨answered.once, answered.unstarted⟩, unclosed, none_⟩, rfl⟩

theorem connect_kept {before after : List Act} (opened : Open 0 s)
    (calm : ∀ a ∈ before ++ after, Calm a)
    (reached : run step s (.createConnect :: (before ++ .continueConnect :: after)) = some s') :
    Along step Disciplined s (.createConnect :: (before ++ .continueConnect :: after)) ∧
      Open 0 s' := by
  rw [← List.cons_append] at reached ⊢
  obtain ⟨s₁, front, back⟩ := run_append_eq_some.mp reached
  obtain ⟨created, waiting⟩ := createConnect_kept opened
    (fun a member => calm a (List.mem_append_left _ member)) front
  obtain ⟨s₂, taken, rest⟩ := run_cons_eq_some.mp back
  cases Step.of_step taken with
  | continueConnect =>
      obtain ⟨along, opened⟩ := environment_run (I := Open 0) (fun a calm => calm.1)
        (fun _ _ _ opened calm taken => open_kept opened calm taken)
        (fun a member => calm a (List.mem_append_right _ member))
        (continueConnect_open waiting) rest
      exact ⟨along_append created front (along_cons ⟨trivial, trivial⟩ taken along), opened⟩

end Senders

/-! ## Executions -/

section Pipelines

variable {L : Type u} {V : Type v} {X : Type w} {role : L → Role} {value : Value → V}
  {failure : Failure → X} {s : State} {target : Target} {signal : Signal V X}

theorem Answers.completed (answers : Answers value failure s target signal) :
    s.signals target ≠ [] := by
  obtain ⟨completion, first, -⟩ := answers
  intro none_
  rw [none_] at first
  cases first

theorem completes_kept :
    Kept step (Completes role value failure) (order role) Disciplined Fits := by
  intro stage s l acts signal s' stage' fits ordered moved completed
  cases completed with
  | other nothing calm =>
      obtain ⟨along, fits'⟩ := environment_run (I := Fits stage) (fun a calm => calm.1)
        (fun _ _ _ fits calm taken => fits_kept fits calm taken) calm fits moved
      refine ⟨along, ?_⟩
      rcases nothing with other | construct | destroy
      · rw [SocketOrder.order_aside (.inl other) ordered]
        exact fits'
      · obtain ⟨rfl, rfl⟩ := SocketOrder.order_construct construct ordered
        exact fits'
      · obtain ⟨rfl | rfl, rfl⟩ := SocketOrder.order_destroy destroy ordered
        · exact .inl fits'
        · exact .inr fits'
  | call call calm completed =>
      rw [SocketOrder.order_aside (.inr call) ordered]
      exact environment_run (I := Fits stage) (fun a calm => calm.1)
        (fun _ _ _ fits calm taken => fits_kept fits calm taken) calm fits moved
  | cancelled connect calm =>
      obtain ⟨rfl, cancelled, -⟩ := SocketOrder.order_connect connect ordered
      rw [cancelled rfl]
      exact createConnect_kept fits calm moved
  | connect connect calm completed =>
      obtain ⟨rfl, -, connected⟩ := SocketOrder.order_connect connect ordered
      rw [connected completed]
      exact connect_kept fits calm moved
  | write write environment sent completed =>
      obtain ⟨rfl, rfl⟩ := SocketOrder.order_transfer (.inl write) ordered
      have opened : Open 0 s := fits
      obtain ⟨along, idle⟩ := environment_run (I := Idle 0) (fun _ holds => holds)
        (fun _ _ _ idle environment taken => idle_kept idle environment taken) environment
        opened.idle moved
      exact ⟨along, idle, sent⟩
  | read read new calm answers =>
      obtain ⟨rfl, rfl⟩ := SocketOrder.order_transfer (.inr read) ordered
      exact read_kept fits new calm moved answers.completed
  | close close new calm answers =>
      obtain ⟨rfl, rfl⟩ := SocketOrder.order_close close ordered
      obtain ⟨along, closed, -⟩ := close_kept fits new calm moved answers.completed
      exact ⟨along, closed⟩

theorem construct_open : Open 0 construct :=
  ⟨⟨⟨rfl, rfl, rfl⟩, ⟨nofun, fun _ _ => rfl⟩, nofun, rfl⟩, rfl⟩

theorem Fits.answered {stage : Stage} (fits : Fits stage s) : Answered s := by
  have opened : ∀ {n}, Open n s → Answered s := fun opened => opened.idle.answered
  cases stage with
  | unborn => exact opened (n := 0) fits
  | fresh => exact opened (n := 0) fits
  | connected => exact opened (n := 0) fits
  | cancelled => exact opened (n := 1) fits
  | closed =>
      have closed : Closed s := fits
      exact closed.answered
  | gone =>
      rcases fits with cancelled | closed
      · exact opened cancelled
      · exact closed.answered

/-- What a run under the discipline is good for. -/
theorem faithful_visited {acts : List Act} (along : Along step Disciplined construct acts)
    (visited : Visits step construct acts s) : Faithful s := by
  have kept : Holder s ∧ Reads s := by
    refine along.invariant_visited (I := fun s => Holder s ∧ Reads s) ?_
      ⟨.nobody rfl rfl rfl (fun _ => nofun), TcpSocket.construct_reads⟩ visited
    rintro s a s' ⟨holder, reads⟩ ⟨once, exclusive⟩ taken
    exact TcpSocket.step_keeps holder reads once exclusive taken
  exact TcpSocket.faithful kept.1 kept.2

end Pipelines

/-- **Pipelines keep the slot.**  In every execution of a pipeline whose senders keep to the
order, every callback reaches the object that installed it, and each Read and Close that
was started has completed once. -/
theorem pipelines_keep_the_slot {L : Type u} {V : Type v} {X : Type w} {role : L → Role}
    {value : Value → V} {failure : Failure → X} {p : Pipeline L V X} {signal : Signal V X}
    {t : Trail State Act L V X} {stage : Stage}
    (executed : Exec (Goes step (Completes role value failure)) p (.start construct) signal t)
    (ordered : run (order role) .unborn t.calls = some stage) :
    run step construct t.acts = some t.state ∧
      (∀ s, Visits step construct t.acts s → Faithful s) ∧
      ∀ target ∈ t.state.started, (t.state.signals target).length = 1 := by
  have start : Fits .unborn construct := construct_open
  obtain ⟨reached, along, fits⟩ := executed_along completes_kept start executed ordered
  exact ⟨reached, fun s visited => faithful_visited along visited, fits.answered.once⟩

/-- Two Reads of a socket that is connected and closed. -/
def twoReads : Pipeline Role Value Failure :=
  ((((Pipeline.leaf .construct).andLet fun _ => .leaf .connect).andLet fun _ =>
    .leaf .read).andLet fun _ => .leaf .read).andLet fun _ => .leaf .close

/-- What is left behind by these steps and senders. -/
def left {L : Type u} {V : Type v} {X : Type w} (acts : List Act)
    (calls : List (L × Signal V X)) : Trail State Act L V X :=
  ⟨(run step construct acts).getD construct, acts, calls⟩

/-- The second Read finds the end of the stream, and the Close is passed by. -/
theorem pipelines_keep_the_slot_twoReads :
    ∃ signal t, Exec (Goes step (Completes id id id)) twoReads (.start construct) signal t ∧
      t.acts = [.createConnect, .continueConnect, .startRead 0 0, .allocCallback, .readCallback 5,
        .startRead 1 0, .readCallback uvEOF] ∧
      (∀ s, Visits step construct t.acts s → Faithful s) ∧
      ∀ target ∈ t.state.started, (t.state.signals target).length = 1 := by
  have constructed : Goes step (Completes id id id) .construct (.start construct) (.value .unit)
      (left [] [(.construct, .value .unit)]) :=
    ⟨[], rfl, .other (.inr (.inl rfl)) nofun, rfl, rfl⟩
  have connected : Goes step (Completes id id id) .connect (left [] [(.construct, .value .unit)])
      (.value .unit) (left [.createConnect, .continueConnect]
        [(.construct, .value .unit), (.connect, .value .unit)]) :=
    ⟨_, rfl, @Completes.connect Role Value Failure id id id .connect _ _ [] [] _ rfl nofun nofun,
      rfl, rfl⟩
  have first : Goes step (Completes id id id) .read
      (left [.createConnect, .continueConnect]
        [(.construct, .value .unit), (.connect, .value .unit)]) (.value (.count 5))
      (left [.createConnect, .continueConnect, .startRead 0 0, .allocCallback, .readCallback 5]
        [(.construct, .value .unit), (.connect, .value .unit), (.read, .value (.count 5))]) :=
    ⟨_, rfl, .read rfl (by decide) (by simp [Calm, Environment]) ⟨_, rfl, rfl⟩, rfl, rfl⟩
  have second : Goes step (Completes id id id) .read
      (left [.createConnect, .continueConnect, .startRead 0 0, .allocCallback, .readCallback 5]
        [(.construct, .value .unit), (.connect, .value .unit), (.read, .value (.count 5))])
      (.error (.exception IoError.kEOF.makeErrorCode))
      (left [.createConnect, .continueConnect, .startRead 0 0, .allocCallback, .readCallback 5,
          .startRead 1 0, .readCallback uvEOF]
        [(.construct, .value .unit), (.connect, .value .unit), (.read, .value (.count 5)),
          (.read, .error (.exception IoError.kEOF.makeErrorCode))]) :=
    ⟨_, rfl, .read rfl (by decide) (by simp [Calm, Environment]) ⟨_, rfl, rfl⟩, rfl, rfl⟩
  have executed : ∃ signal t, Exec (Goes step (Completes id id id)) twoReads (.start construct)
      signal t ∧ t.acts = [.createConnect, .continueConnect, .startRead 0 0, .allocCallback,
        .readCallback 5, .startRead 1 0, .readCallback uvEOF] ∧
      run (order id) .unborn t.calls = some .connected :=
    ⟨_, _, Exec.andLet_error (Exec.andLet (Exec.andLet (Exec.andLet (.leaf constructed)
      (.leaf connected)) (.leaf first)) (.leaf second)), rfl, rfl⟩
  obtain ⟨signal, t, executed, acts, ordered⟩ := executed
  obtain ⟨-, faithful, once⟩ := pipelines_keep_the_slot executed ordered
  exact ⟨signal, t, executed, acts, faithful, once⟩

/-! ## The network test -/

section Client

/-- The senders of the client on the slot. -/
abbrev ClientCompletes :=
  Completes SocketOrder.role Client.Result.value Client.Exception.failure

theorem client_settles : SocketOrder.Settles step ClientCompletes Fits where
  used l s acts s' uses completed := by
    cases completed with
    | other nothing => rcases nothing with h | h | h <;> simp [h] at uses
    | call call calm completed => exact completed rfl
    | cancelled connect => simp [connect] at uses
    | connect connect calm completed => exact completed rfl
    | write write environment sent completed => exact completed rfl
    | read read new calm answers =>
        obtain ⟨completion, -, signal⟩ := answers
        exact completion.1.signal_ne_done signal.symm
    | close close => simp [close] at uses
  close s acts signal s' fits moved completed := by
    cases completed with
    | other nothing => rcases nothing with h | h | h <;> cases h
    | call call => cases call
    | cancelled connect => cases connect
    | connect connect => cases connect
    | write write => cases write
    | read read => cases read
    | close close new calm answers =>
        obtain ⟨-, -, phase, one⟩ := close_kept fits new calm moved answers.completed
        obtain ⟨completion, first, rfl⟩ := answers
        rw [one] at first
        obtain rfl := Option.some.inj first
        exact ⟨_, rfl⟩

end Client

/-- **The client keeps the slot.**  In every execution of the network test, whatever its
senders complete with, every callback reaches its own object, each Read and Close that was
started has completed once, and the socket is not left open. -/
theorem client_keeps_the_slot {signal : Signal Client.Result Client.Exception}
    {t : Trail State Act Client.Leaf Client.Result Client.Exception}
    (executed : Exec (Goes step ClientCompletes) Client.glbSnd (.start construct) signal t) :
    run step construct t.acts = some t.state ∧
      (∀ s, Visits step construct t.acts s → Faithful s) ∧
      (∀ target ∈ t.state.started, (t.state.signals target).length = 1) ∧
      ∃ stage ≠ .connected, run (order SocketOrder.role) .unborn t.calls = some stage := by
  have start : Fits .unborn construct := construct_open
  have stands := wp_iff.mp (SocketOrder.glbSnd_ordered completes_kept client_settles start)
  obtain ⟨stage, ordered, -, finished⟩ := stands signal t executed
  obtain ⟨reached, along, fits⟩ := executed_along completes_kept start executed ordered
  exact ⟨reached, fun s visited => faithful_visited along visited, fits.answered.once, stage,
    finished, ordered⟩

/-- The senders of a client whose connection is refused. -/
def refusedCalls : List (Client.Leaf × Signal Client.Result Client.Exception) :=
  [(.lookupIp, .value (.ips [Net.ipv4 127 0 0 1])), (.construct, .value (.value .unit)),
    (.connect (Net.ipv4 127 0 0 1),
      (Operation.tcpConnectOp.callback ⟨-111, 0, 0⟩).signal .value .failure),
    (.close, .value (.value .unit)), (.destroy, .value (.value .unit))]

theorem client_keeps_the_slot_refused :
    ∃ signal t, Exec (Goes step ClientCompletes) Client.glbSnd (.start construct) signal t ∧
      t.acts = [.createConnect, .continueConnect, .startClose 0 0, .closeCallback] ∧
      t.calls = refusedCalls ∧ ∀ s, Visits step construct t.acts s → Faithful s := by
  have lookedUp : Goes step ClientCompletes .lookupIp (.start construct)
      (.value (.ips [Net.ipv4 127 0 0 1])) (left [] (refusedCalls.take 1)) :=
    ⟨[], rfl, .other (.inl rfl) nofun, rfl, rfl⟩
  have constructed : Goes step ClientCompletes .construct (left [] (refusedCalls.take 1))
      (.value (.value .unit)) (left [] (refusedCalls.take 2)) :=
    ⟨[], rfl, .other (.inr (.inl rfl)) nofun, rfl, rfl⟩
  have refused : Goes step ClientCompletes (.connect (Net.ipv4 127 0 0 1))
      (left [] (refusedCalls.take 2))
      ((Operation.tcpConnectOp.callback ⟨-111, 0, 0⟩).signal .value .failure)
      (left [.createConnect, .continueConnect] (refusedCalls.take 3)) :=
    ⟨_, rfl, @Completes.connect Client.Leaf Client.Result Client.Exception _ _ _ _ _ _ [] [] _
      rfl nofun (Completion.signal_ne_done _), rfl, rfl⟩
  have closed : Goes step ClientCompletes .close
      (left [.createConnect, .continueConnect] (refusedCalls.take 3)) (.value (.value .unit))
      (left [.createConnect, .continueConnect, .startClose 0 0, .closeCallback]
        (refusedCalls.take 4)) :=
    ⟨_, rfl, .close rfl (by decide) (by simp [Calm, Environment]) ⟨_, rfl, rfl⟩, rfl, rfl⟩
  have destroyed : Goes step ClientCompletes .destroy
      (left [.createConnect, .continueConnect, .startClose 0 0, .closeCallback]
        (refusedCalls.take 4)) (.value (.value .unit))
      (left [.createConnect, .continueConnect, .startClose 0 0, .closeCallback] refusedCalls) :=
    ⟨[], rfl, .other (.inr (.inr rfl)) nofun, rfl, rfl⟩
  have executed : ∃ signal t, Exec (Goes step ClientCompletes) Client.glbSnd (.start construct)
      signal t ∧ t.acts = [.createConnect, .continueConnect, .startClose 0 0, .closeCallback] ∧
      t.calls = refusedCalls :=
    ⟨_, _, Exec.andLet (.leaf lookedUp) (Exec.letValueWith constructed (Exec.letError
      (Exec.andLet_error (Exec.andLet_error (Exec.andLet_error (.leaf refused))))
      (Exec.andThen (.leaf closed))) destroyed), rfl, rfl⟩
  obtain ⟨signal, t, executed, acts, calls⟩ := executed
  exact ⟨signal, t, executed, acts, calls, (client_keeps_the_slot executed).2.1⟩

end PatBase.Runtime.SlotPipelines
