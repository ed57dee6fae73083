/-
# PatBase.Lib.Trails -- pipelines whose senders run on a machine

Between its start and its completion a sender lets a machine take some actions, its own
and those of its environment: `completes l s acts signal s'` says that this may be all of
them.  `Trail` is what an execution of a pipeline leaves behind -- the state, the actions
so far and the senders that have completed, with their signals.

The senders of a pipeline run one after another.  So where they complete in an order that
a second machine allows, and each of them, from a state that fits where that machine is,
meets a discipline and leaves a state that fits again, the whole execution is a run of the
first machine that meets the discipline (`executed_along`).  `wp_goes` is the rule by
which a proof finds the order in a pipeline.
-/
import PatBase.Lib.Signals
import PatBase.Lib.Simulation

namespace PatBase.Lib.Trails

open PatBase.Lib.Machine PatBase.Lib.Signals

set_option autoImplicit false

universe u₁ u₂ u₃ u₄ u₅ u₆

variable {σ : Type u₁} {α : Type u₂} {τ : Type u₃} {L : Type u₄} {V : Type u₅} {X : Type u₆}

structure Trail (σ : Type u₁) (α : Type u₂) (L : Type u₄) (V : Type u₅) (X : Type u₆) where
  state : σ
  acts : List α
  calls : List (L × Signal V X)

/-- Nothing has been started yet. -/
def Trail.start (s : σ) : Trail σ α L V X := ⟨s, [], []⟩

/-- A sender from its start to its completion. -/
def Goes (step : σ → α → Option σ) (completes : L → σ → List α → Signal V X → σ → Prop) (l : L)
    (t : Trail σ α L V X) (signal : Signal V X) (t' : Trail σ α L V X) : Prop :=
  ∃ acts, run step t.state acts = some t'.state ∧ completes l t.state acts signal t'.state ∧
    t'.acts = t.acts ++ acts ∧ t'.calls = t.calls ++ [(l, signal)]

/-- Only actions of this kind are taken. -/
def within (Usual : α → Prop) (completes : L → σ → List α → Signal V X → σ → Prop) (l : L)
    (s : σ) (acts : List α) (signal : Signal V X) (s' : σ) : Prop :=
  completes l s acts signal s' ∧ ∀ a ∈ acts, Usual a

/-- A sender, started in a state that fits its place in the order, meets `D` until it
completes, and the state after it fits the next place. -/
def Kept (step : σ → α → Option σ) (completes : L → σ → List α → Signal V X → σ → Prop)
    (order : τ → L × Signal V X → Option τ) (D : σ → α → Prop) (Fits : τ → σ → Prop) : Prop :=
  ∀ stage s l acts signal s' stage', Fits stage s → order stage (l, signal) = some stage' →
    run step s acts = some s' → completes l s acts signal s' →
      Along step D s acts ∧ Fits stage' s'

/-- The senders so far have kept to the order, and where they have come to has `Q`. -/
def Stands (order : τ → L × Signal V X → Option τ) (stage₀ : τ) (Fits : τ → σ → Prop)
    (Q : Signal V X → τ → Prop) (signal : Signal V X) (t : Trail σ α L V X) : Prop :=
  ∃ stage, run order stage₀ t.calls = some stage ∧ Fits stage t.state ∧ Q signal stage

section Executions

variable {step : σ → α → Option σ} {completes : L → σ → List α → Signal V X → σ → Prop}
  {order : τ → L × Signal V X → Option τ} {D : σ → α → Prop} {Fits : τ → σ → Prop}
  {p : Pipeline L V X} {signal : Signal V X} {s₀ : σ} {stage₀ stage : τ}
  {t : Trail σ α L V X}

/-- **One after another.** -/
theorem executed_along (kept : Kept step completes order D Fits) (fits : Fits stage₀ s₀)
    (executed : Exec (Goes step completes) p (.start s₀) signal t)
    (ordered : run order stage₀ t.calls = some stage) :
    run step s₀ t.acts = some t.state ∧ Along step D s₀ t.acts ∧ Fits stage t.state := by
  have soFar : ∀ stage, run order stage₀ t.calls = some stage →
      run step s₀ t.acts = some t.state ∧ Along step D s₀ t.acts ∧ Fits stage t.state := by
    refine executed.invariant (I := fun t : Trail σ α L V X => ∀ stage,
      run order stage₀ t.calls = some stage →
        run step s₀ t.acts = some t.state ∧ Along step D s₀ t.acts ∧ Fits stage t.state) ?_ ?_
    · rintro l t signal t' ⟨acts, moved, completed, acts', calls'⟩ ih stage' ordered
      rw [calls'] at ordered
      obtain ⟨stage, before, next⟩ := run_snoc_eq_some.mp ordered
      obtain ⟨reached, along, fits⟩ := ih stage before
      obtain ⟨meets, fits'⟩ := kept stage t.state l acts signal t'.state stage' fits next moved
        completed
      rw [acts']
      exact ⟨run_append_eq_some.mpr ⟨t.state, reached, moved⟩, along_append along reached meets,
        fits'⟩
    · intro stage here
      obtain rfl := Option.some.inj here
      exact ⟨rfl, along_nil, fits⟩
  exact soFar stage ordered

/-- Where the order does not matter, and every sender keeps `I`. -/
theorem executed_along_of_invariant {I : σ → Prop}
    (kept : ∀ s l acts signal s', I s → run step s acts = some s' →
      completes l s acts signal s' → Along step D s acts ∧ I s')
    (start : I s₀) (executed : Exec (Goes step completes) p (.start s₀) signal t) :
    run step s₀ t.acts = some t.state ∧ Along step D s₀ t.acts ∧ I t.state := by
  have free : ∀ calls : List (L × Signal V X),
      run (fun (_ : Unit) (_ : L × Signal V X) => some ()) () calls = some () := by
    intro calls
    induction calls with
    | nil => rfl
    | cons call calls ih => exact ih
  have kept' : Kept step completes (fun (_ : Unit) _ => some ()) D fun _ => I :=
    fun _ s l acts signal s' _ holds _ moved completed =>
      kept s l acts signal s' holds moved completed
  have start' : (fun _ : Unit => I) () s₀ := start
  exact executed_along kept' start' executed (free t.calls)

/-- What lasts while only some actions are taken. -/
theorem along_kept {Usual : α → Prop} {I : σ → Prop} {s s' : σ} {acts : List α}
    (kept : ∀ s a s', I s → Usual a → step s a = some s' → D s a ∧ I s')
    (all : ∀ a ∈ acts, Usual a) (start : I s) (reached : run step s acts = some s') :
    Along step D s acts ∧ I s' := by
  induction acts generalizing s with
  | nil =>
      obtain rfl := Option.some.inj reached
      exact ⟨along_nil, start⟩
  | cons a acts ih =>
      obtain ⟨u, taken, rest⟩ := run_cons_eq_some.mp reached
      obtain ⟨meets, holds⟩ := kept s a u start (all a List.mem_cons_self) taken
      obtain ⟨along, last⟩ := ih (fun b member => all b (List.mem_cons_of_mem _ member)) holds rest
      exact ⟨along_cons meets taken along, last⟩

/-- The order after one more sender. -/
theorem wp_goes {Q : Signal V X → τ → Prop} {l : L} (kept : Kept step completes order D Fits)
    (here : run order stage₀ t.calls = some stage) (fits : Fits stage t.state)
    (next : ∀ acts signal s', run step t.state acts = some s' →
      completes l t.state acts signal s' →
        ∃ stage', order stage (l, signal) = some stage' ∧ Q signal stage') :
    wp (Goes step completes) (.leaf l) (Stands order stage₀ Fits Q) t := by
  rintro signal t' ⟨acts, moved, completed, -, calls⟩
  obtain ⟨stage', ordered, holds⟩ := next acts signal t'.state moved completed
  obtain ⟨-, fits'⟩ := kept stage t.state l acts signal t'.state stage' fits ordered moved completed
  refine ⟨stage', ?_, fits', holds⟩
  rw [calls]
  exact run_snoc_eq_some.mpr ⟨stage, here, ordered⟩

end Executions

end PatBase.Lib.Trails
