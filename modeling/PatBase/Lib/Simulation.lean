/-
# PatBase.Lib.Simulation -- one machine explained by another

`emits` is what a run shows to an observer who sees `out s a` of each step.  An image of
one machine in another is such an observation: the actions of the abstract machine that
a step of the concrete one stands for, none for a step that is internal.

`Simulation.run` is the rule: a relation kept by one concrete step and its image is kept
by a whole run and what it emits, and the abstract run meets its own discipline.
-/
import PatBase.Lib.Machine

namespace PatBase.Lib.Machine

set_option autoImplicit false

universe u v w x

variable {σ : Type u} {α : Type v} {τ : Type w} {β : Type x}

/-- What the steps of a run put out, in their order. -/
def emits (step : σ → α → Option σ) (out : σ → α → List β) : σ → List α → List β
  | _, [] => []
  | s, a :: as => out s a ++ (step s a).elim [] fun s' => emits step out s' as

section Emits

variable {step : σ → α → Option σ} {out : σ → α → List β} {s s' t : σ} {a : α} {as : List α}

@[simp] theorem emits_nil : emits step out s [] = [] := rfl

theorem emits_cons (taken : step s a = some s') :
    emits step out s (a :: as) = out s a ++ emits step out s' as := by
  rw [emits, taken]
  rfl

/-- The last step of a run puts its output behind that of the run. -/
theorem emits_snoc (reached : run step s as = some t) :
    emits step out s (as ++ [a]) = emits step out s as ++ out t a := by
  induction as generalizing s with
  | nil =>
      obtain rfl := Option.some.inj reached
      rw [List.nil_append, emits_nil, List.nil_append, emits]
      cases step s a with
      | none => exact List.append_nil _
      | some s' => exact List.append_nil _
  | cons b bs ih =>
      obtain ⟨s', taken, rest⟩ := run_cons_eq_some.mp reached
      rw [List.cons_append, emits_cons taken, emits_cons taken, ih rest, List.append_assoc]

end Emits

section Along

variable {step : τ → β → Option τ} {D : τ → β → Prop} {t t' : τ} {bs cs : List β}

/-- Disciplined runs put one behind the other. -/
theorem along_append (front : Along step D t bs) (reached : run step t bs = some t')
    (back : Along step D t' cs) : Along step D t (bs ++ cs) := by
  induction bs generalizing t with
  | nil =>
      obtain rfl := Option.some.inj reached
      exact back
  | cons b bs ih =>
      obtain ⟨u, taken, rest⟩ := run_cons_eq_some.mp reached
      exact along_cons front.1 taken (ih (front.2 u taken) rest)

end Along

/-- A concrete step that meets `D`, from related states, is followed by its image, each
step of which meets `D'`, and the states are related again. -/
def Simulation (step : σ → α → Option σ) (step' : τ → β → Option τ) (image : σ → α → List β)
    (D : σ → α → Prop) (D' : τ → β → Prop) (R : σ → τ → Prop) : Prop :=
  ∀ s t a s', R s t → D s a → step s a = some s' →
    ∃ t', run step' t (image s a) = some t' ∧ Along step' D' t (image s a) ∧ R s' t'

/-- **The simulation rule.** -/
theorem Simulation.run {step : σ → α → Option σ} {step' : τ → β → Option τ}
    {image : σ → α → List β} {D : σ → α → Prop} {D' : τ → β → Prop} {R : σ → τ → Prop}
    (simulation : Simulation step step' image D D' R) {s s' : σ} {t : τ} {as : List α}
    (meets : Along step D s as) (related : R s t) (reached : Machine.run step s as = some s') :
    ∃ t', Machine.run step' t (emits step image s as) = some t' ∧
      Along step' D' t (emits step image s as) ∧ R s' t' := by
  induction as generalizing s t with
  | nil =>
      obtain rfl := Option.some.inj reached
      exact ⟨t, rfl, along_nil, related⟩
  | cons a as ih =>
      obtain ⟨u, taken, rest⟩ := run_cons_eq_some.mp reached
      obtain ⟨v, moved, front, related'⟩ := simulation s t a u related meets.1 taken
      obtain ⟨t', later, back, relatedEnd⟩ := ih (meets.2 u taken) related' rest
      rw [emits_cons taken]
      exact ⟨t', run_append_eq_some.mpr ⟨v, moved, later⟩, along_append front moved back,
        relatedEnd⟩

end PatBase.Lib.Machine
