/-
# PatBase.Runtime.SocketOrder -- the order in which a pipeline uses its socket

A `TCPSocket` is made to be constructed, connected, read from and written to, closed and
destroyed.  Nothing in it checks that, but a pipeline of `let`s starts each sender when the
one before it has completed, so it is enough to look at the senders in the order in which
they completed: `order` says which come next.

`glbSnd_ordered`: the network test of test.cc keeps to the order, on whatever machine its
senders run and however they complete.  Its `let_error` is what closes the socket after a
failure; a sender that signalled done would pass it by.
-/
import PatBase.Lib.Trails
import PatBase.Runtime.Client

namespace PatBase.Runtime.SocketOrder

open PatBase.Lib.Machine PatBase.Lib.Signals PatBase.Lib.Trails
open PatBase.Runtime.Client (Leaf Result Exception glbSnd session)

set_option autoImplicit false

universe u v w

/-! ## The order -/

/-- What a sender has to do with the socket. -/
inductive Role where
  /-- Nothing. -/
  | other
  /-- Nothing; it is a function call, which may throw. -/
  | call
  | construct
  | connect
  | write
  | read
  | close
  | destroy
  deriving DecidableEq, Repr

inductive Stage where
  | unborn
  | fresh
  /-- Stop was requested before the Connect ran. -/
  | cancelled
  | connected
  | closed
  | gone
  deriving DecidableEq, Repr

section Order

variable {L : Type u} {V : Type v} {X : Type w}

/-- Where the socket is after one more sender. -/
def order (role : L → Role) (stage : Stage) : L × Signal V X → Option Stage
  | (l, signal) =>
    match role l, stage with
    | .other, stage => some stage
    | .call, stage => some stage
    | .construct, .unborn => some .fresh
    | .connect, .fresh =>
        match signal with
        | .done => some .cancelled
        | _ => some .connected
    | .write, .connected => some .connected
    | .read, .connected => some .connected
    | .close, .connected => some .closed
    | .destroy, .cancelled => some .gone
    | .destroy, .closed => some .gone
    | _, _ => none

variable {role : L → Role} {l : L} {signal : Signal V X} {stage stage' : Stage}

theorem order_aside (aside : role l = .other ∨ role l = .call)
    (ordered : order role stage (l, signal) = some stage') : stage' = stage := by
  rcases aside with other | call
  · simp only [order, other, Option.some.injEq] at ordered
    exact ordered.symm
  · simp only [order, call, Option.some.injEq] at ordered
    exact ordered.symm

theorem order_construct (construct : role l = .construct)
    (ordered : order role stage (l, signal) = some stage') :
    stage = .unborn ∧ stage' = .fresh := by
  cases stage <;> simp_all [order]

theorem order_connect (connect : role l = .connect)
    (ordered : order role stage (l, signal) = some stage') :
    stage = .fresh ∧ (signal = .done → stage' = .cancelled) ∧
      (signal ≠ .done → stage' = .connected) := by
  cases stage <;> cases signal <;> simp_all [order]

theorem order_transfer (transfer : role l = .write ∨ role l = .read)
    (ordered : order role stage (l, signal) = some stage') :
    stage = .connected ∧ stage' = .connected := by
  cases stage <;> rcases transfer with write | read <;> simp_all [order]

theorem order_close (close : role l = .close)
    (ordered : order role stage (l, signal) = some stage') :
    stage = .connected ∧ stage' = .closed := by
  cases stage <;> simp_all [order]

theorem order_destroy (destroy : role l = .destroy)
    (ordered : order role stage (l, signal) = some stage') :
    (stage = .cancelled ∨ stage = .closed) ∧ stage' = .gone := by
  cases stage <;> simp_all [order]

end Order

/-! ## The network test -/

def role : Leaf → Role
  | .lookupIp => .other
  | .construct => .construct
  | .connect _ => .connect
  | .write => .write
  | .resize => .call
  | .read => .read
  | .close => .close
  | .destroy => .destroy

/-- On an open socket a sender completes with a value or an error, and a Close with a
value. -/
structure Settles {σ : Type u} {α : Type v} (step : σ → α → Option σ)
    (completes : Leaf → σ → List α → Signal Result Exception → σ → Prop)
    (Fits : Stage → σ → Prop) : Prop where
  used : ∀ l s acts s', role l = .call ∨ role l = .write ∨ role l = .read →
    ¬ completes l s acts .done s'
  close : ∀ s acts signal s', Fits .connected s → run step s acts = some s' →
    completes .close s acts signal s' → ∃ v, signal = .value v

section Client

variable {σ : Type u} {α : Type v} {step : σ → α → Option σ}
  {completes : Leaf → σ → List α → Signal Result Exception → σ → Prop} {D : σ → α → Prop}
  {Fits : Stage → σ → Prop} {p : Pipeline Leaf Result Exception}
  {t : Trail σ α Leaf Result Exception}

/-- In the middle of the session. -/
def Midway (signal : Signal Result Exception) (stage : Stage) : Prop :=
  signal ≠ .done ∧ stage = .connected ∨ signal = .done ∧ stage = .cancelled

/-- What `let_error` finds: a value of the Close, or an error of a sender before it. -/
def Caught : Signal Result Exception → Stage → Prop
  | .value _, stage => stage = .closed
  | .error _, stage => stage = .connected
  | .done, stage => stage = .cancelled

/-- Before the destructor runs. -/
def Over (_ : Signal Result Exception) (stage : Stage) : Prop :=
  stage = .closed ∨ stage = .cancelled

/-- A sender that uses the open socket. -/
theorem midway_leaf (kept : Kept step completes (order role) D Fits)
    (settles : Settles step completes Fits) {l : Leaf}
    (uses : role l = .call ∨ role l = .write ∨ role l = .read)
    (here : run (order role) .unborn t.calls = some .connected) (fits : Fits .connected t.state) :
    wp (Goes step completes) (.leaf l) (Stands (order role) .unborn Fits Midway) t := by
  refine wp_goes kept here fits fun acts signal s' _ completed =>
    ⟨.connected, ?_, .inl ⟨?_, rfl⟩⟩
  · rcases uses with call | write | read
    · simp only [order, call]
    · simp only [order, write]
    · simp only [order, read]
  · rintro rfl
    exact settles.used l t.state acts s' uses completed

theorem midway_andLet {next : Result → Pipeline Leaf Result Exception}
    (first : wp (Goes step completes) p (Stands (order role) .unborn Fits Midway) t)
    (later : ∀ v t', run (order role) .unborn t'.calls = some .connected →
      Fits .connected t'.state →
        wp (Goes step completes) (next v) (Stands (order role) .unborn Fits Midway) t') :
    wp (Goes step completes) (p.andLet next) (Stands (order role) .unborn Fits Midway) t := by
  refine wp_andLet first ?_ (fun _ _ midway => midway) fun _ midway => midway
  rintro v t' ⟨stage, here, fits, ⟨-, rfl⟩ | ⟨impossible, -⟩⟩
  · exact later v t' here fits
  · cases impossible

theorem midway_andThen
    (first : wp (Goes step completes) p (Stands (order role) .unborn Fits Midway) t) :
    wp (Goes step completes) (p.andThen Client.print) (Stands (order role) .unborn Fits Midway)
      t := by
  refine wp_andThen first ?_ (fun _ _ midway => midway) fun _ midway => midway
  rintro v t' ⟨stage, here, fits, ⟨-, rfl⟩ | ⟨impossible, -⟩⟩
  · exact ⟨.connected, here, fits, .inl ⟨by simp [Client.print], rfl⟩⟩
  · cases impossible

theorem close_leaf (kept : Kept step completes (order role) D Fits)
    (settles : Settles step completes Fits)
    (here : run (order role) .unborn t.calls = some .connected) (fits : Fits .connected t.state) :
    wp (Goes step completes) (.leaf .close)
      (Stands (order role) .unborn Fits fun signal stage =>
        (∃ v, signal = .value v) ∧ stage = .closed) t :=
  wp_goes kept here fits fun acts signal s' moved completed =>
    ⟨.closed, rfl, settles.close t.state acts signal s' fits moved completed, rfl⟩

/-- From the Connect to the last Close. -/
theorem session_ordered (kept : Kept step completes (order role) D Fits)
    (settles : Settles step completes Fits) {ip : Net.Ip}
    (here : run (order role) .unborn t.calls = some .fresh) (fits : Fits .fresh t.state) :
    wp (Goes step completes) (session ip) (Stands (order role) .unborn Fits Over) t := by
  refine wp_letError (R := Stands (order role) .unborn Fits Caught) ?first ?value ?error ?done
  case first =>
    refine wp_andLet (R := Stands (order role) .unborn Fits Midway) ?body ?close ?failed ?cancelled
    case body =>
      refine midway_andLet (midway_andLet ?connect fun v t' here fits => ?write)
        fun v t' here fits => ?reads
      case connect =>
        refine wp_goes kept here fits fun acts signal s' _ _ => ?_
        cases signal with
        | value v => exact ⟨.connected, rfl, .inl ⟨nofun, rfl⟩⟩
        | error x => exact ⟨.connected, rfl, .inl ⟨nofun, rfl⟩⟩
        | done => exact ⟨.cancelled, rfl, .inr ⟨rfl, rfl⟩⟩
      case write => exact midway_leaf kept settles (.inr (.inl rfl)) here fits
      case reads =>
        refine midway_andLet (midway_leaf kept settles (.inl rfl) here fits)
          fun v t' here fits => midway_andThen (midway_andLet (midway_andThen ?_) ?_)
        · exact midway_leaf kept settles (.inr (.inr rfl)) here fits
        · exact fun v t' here fits => midway_leaf kept settles (.inr (.inr rfl)) here fits
    case close =>
      rintro v t' ⟨stage, here, fits, ⟨-, rfl⟩ | ⟨impossible, -⟩⟩
      · refine wp_mono ?_ (close_leaf kept settles here fits)
        rintro signal t'' ⟨stage, here, fits, ⟨v, rfl⟩, closed⟩
        exact ⟨stage, here, fits, closed⟩
      · cases impossible
    case failed =>
      rintro x t' ⟨stage, here, fits, ⟨-, connected⟩ | ⟨impossible, -⟩⟩
      · exact ⟨stage, here, fits, connected⟩
      · cases impossible
    case cancelled =>
      rintro t' ⟨stage, here, fits, ⟨impossible, -⟩ | ⟨-, cancelled⟩⟩
      · exact absurd rfl impossible
      · exact ⟨stage, here, fits, cancelled⟩
  case value =>
    rintro v t' ⟨stage, here, fits, closed⟩
    exact ⟨stage, here, fits, .inl closed⟩
  case error =>
    rintro x t' ⟨stage, here, fits, rfl⟩
    refine wp_andThen (close_leaf kept settles here fits) ?_ ?_ ?_
    · rintro v t'' ⟨stage, here, fits, -, closed⟩
      exact ⟨stage, here, fits, .inl closed⟩
    · rintro x t'' ⟨_, _, _, ⟨v, impossible⟩, -⟩
      cases impossible
    · rintro t'' ⟨_, _, _, ⟨v, impossible⟩, -⟩
      cases impossible
  case done =>
    rintro t' ⟨stage, here, fits, cancelled⟩
    exact ⟨stage, here, fits, .inr cancelled⟩

/-- At the end the socket is gone, or there was none. -/
def Finished (_ : Signal Result Exception) (stage : Stage) : Prop :=
  stage ≠ .connected

/-- **The client keeps to the order.** -/
theorem glbSnd_ordered (kept : Kept step completes (order role) D Fits)
    (settles : Settles step completes Fits) {s₀ : σ} (fits : Fits .unborn s₀) :
    wp (Goes step completes) glbSnd (Stands (order role) .unborn Fits Finished) (.start s₀) := by
  have unborn : wp (Goes step completes) (.leaf .lookupIp)
      (Stands (order role) .unborn Fits fun _ stage => stage = .unborn) (.start s₀) :=
    wp_goes kept rfl fits fun acts signal s' _ _ => ⟨.unborn, rfl, rfl⟩
  refine wp_andLet unborn ?value ?error ?done
  case value =>
    rintro v t ⟨stage, here, fits, rfl⟩
    split
    · have made : wp (Goes step completes) (.leaf .construct)
          (Stands (order role) .unborn Fits fun _ stage => stage = .fresh) t :=
        wp_goes kept here fits fun acts signal s' _ _ => ⟨.fresh, rfl, rfl⟩
      refine wp_letValueWith (R := Stands (order role) .unborn Fits Over) made
        ?body ?threw ?stopped ?destroyed
      case body =>
        rintro v t ⟨stage, here, fits, rfl⟩
        exact session_ordered kept settles here fits
      case threw =>
        rintro x t ⟨stage, here, fits, rfl⟩
        exact ⟨_, here, fits, nofun⟩
      case stopped =>
        rintro t ⟨stage, here, fits, rfl⟩
        exact ⟨_, here, fits, nofun⟩
      case destroyed =>
        rintro signal t ⟨stage, here, fits, ended⟩
        refine wp_goes kept here fits fun acts signal' s' _ _ => ⟨.gone, ?_, nofun⟩
        rcases ended with rfl | rfl
        · rfl
        · rfl
    · exact ⟨_, here, fits, nofun⟩
  case error =>
    rintro x t ⟨stage, here, fits, rfl⟩
    exact ⟨_, here, fits, nofun⟩
  case done =>
    rintro t ⟨stage, here, fits, rfl⟩
    exact ⟨_, here, fits, nofun⟩

end Client

end PatBase.Runtime.SocketOrder
