/-
# PatBase.Lib.Machine -- runs of a partial step function, and their invariants

A machine is a step function `step : σ → α → Option σ`; `none` says the action is
not enabled in that state.  `run` takes a whole list of actions.  Discipline that
the environment owes the machine is not part of `step`: `Along step D s as` says
that every step of the run meets `D` in the state it is taken from, and the two
invariant rules (`Along.invariant`, `Along.invariant_visited`) turn a step lemma
under `D` into a fact about every state of such a run; `along_of_visited` goes the
other way and finds the discipline necessary.
-/
import Mathlib.Data.List.Induction

namespace PatBase.Lib.Machine

set_option autoImplicit false

universe u v w

variable {σ : Type u} {α : Type v}

/-- Take the actions in order; `none` as soon as one of them is not enabled. -/
def run (step : σ → α → Option σ) : σ → List α → Option σ
  | s, [] => some s
  | s, a :: as => (step s a).bind fun s' => run step s' as

/-- Every step of the run meets `D` in the state it is taken from. -/
def Along (step : σ → α → Option σ) (D : σ → α → Prop) : σ → List α → Prop
  | _, [] => True
  | s, a :: as => D s a ∧ ∀ s', step s a = some s' → Along step D s' as

/-- `t` is a state the run passes through, its first and last state included. -/
def Visits (step : σ → α → Option σ) (s : σ) (as : List α) (t : σ) : Prop :=
  ∃ before after, as = before ++ after ∧ run step s before = some t

section Run

variable {step : σ → α → Option σ} {D : σ → α → Prop} {s s' t : σ} {a : α} {as bs : List α}

@[simp] theorem run_nil : run step s [] = some s := rfl

theorem run_cons_eq_some :
    run step s (a :: as) = some t ↔ ∃ s', step s a = some s' ∧ run step s' as = some t := by
  simp only [run, Option.bind_eq_some_iff]

theorem run_append_eq_some :
    run step s (as ++ bs) = some t ↔ ∃ s', run step s as = some s' ∧ run step s' bs = some t := by
  induction as generalizing s with
  | nil => simp
  | cons a as ih =>
      simp only [List.cons_append, run_cons_eq_some, ih]
      constructor
      · rintro ⟨m, first, s', rest, last⟩
        exact ⟨s', ⟨m, first, rest⟩, last⟩
      · rintro ⟨s', ⟨m, first, rest⟩, last⟩
        exact ⟨m, first, s', rest, last⟩

theorem run_snoc_eq_some :
    run step s (as ++ [a]) = some t ↔ ∃ s', run step s as = some s' ∧ step s' a = some t := by
  simp only [run_append_eq_some, run_cons_eq_some, run_nil, Option.some.injEq, exists_eq_right]

@[simp] theorem along_nil : Along step D s [] := trivial

theorem along_cons (meets : D s a) (taken : step s a = some s') (rest : Along step D s' as) :
    Along step D s (a :: as) :=
  ⟨meets, fun _ taken' => Option.some.inj (taken.symm.trans taken') ▸ rest⟩

/-- A discipline on the actions alone. -/
theorem along_of_forall {P : α → Prop} (all : ∀ a ∈ as, P a) :
    Along step (fun _ a => P a) s as := by
  induction as generalizing s with
  | nil => trivial
  | cons a as ih =>
      exact ⟨all a List.mem_cons_self, fun s' _ => ih fun b later => all b (.tail a later)⟩

/-- A discipline that no step can miss. -/
theorem along_of_all (all : ∀ s a, D s a) : Along step D s as := by
  induction as generalizing s with
  | nil => trivial
  | cons a as ih => exact ⟨all s a, fun s' _ => ih⟩

/-- A run that meets `D` throughout meets it up to any of its states. -/
theorem Along.append_left (meets : Along step D s (as ++ bs)) : Along step D s as := by
  induction as generalizing s with
  | nil => trivial
  | cons a as ih => exact ⟨meets.1, fun s' taken => ih (meets.2 s' taken)⟩

theorem Along.append_right (meets : Along step D s (as ++ bs))
    (reached : run step s as = some t) : Along step D t bs := by
  induction as generalizing s with
  | nil => simpa using (Option.some.inj reached) ▸ meets
  | cons a as ih =>
      obtain ⟨s', taken, rest⟩ := run_cons_eq_some.mp reached
      exact ih (meets.2 s' taken) rest

/-- **The invariant rule.**  What every disciplined step preserves holds at the
end of every disciplined run. -/
theorem Along.invariant {I : σ → Prop}
    (preserved : ∀ s a s', I s → D s a → step s a = some s' → I s')
    (meets : Along step D s as) (start : I s) (reached : run step s as = some t) : I t := by
  induction as generalizing s with
  | nil => exact Option.some.inj reached ▸ start
  | cons a as ih =>
      obtain ⟨s', taken, rest⟩ := run_cons_eq_some.mp reached
      exact ih (meets.2 s' taken) (preserved s a s' start meets.1 taken) rest

/-- The invariant rule at every state the run passes through. -/
theorem Along.invariant_visited {I : σ → Prop}
    (preserved : ∀ s a s', I s → D s a → step s a = some s' → I s')
    (meets : Along step D s as) (start : I s) (visited : Visits step s as t) : I t := by
  obtain ⟨before, after, rfl, reached⟩ := visited
  exact meets.append_left.invariant preserved start reached

theorem Along.mono {E : σ → α → Prop} (weaker : ∀ s a, D s a → E s a)
    (meets : Along step D s as) : Along step E s as := by
  induction as generalizing s with
  | nil => trivial
  | cons a as ih => exact ⟨weaker s a meets.1, fun s' taken => ih (meets.2 s' taken)⟩

/-- A run that meets two disciplines. -/
theorem Along.and {E : σ → α → Prop} (first : Along step D s as) (second : Along step E s as) :
    Along step (fun s a => D s a ∧ E s a) s as := by
  induction as generalizing s with
  | nil => trivial
  | cons a as ih =>
      exact ⟨⟨first.1, second.1⟩, fun s' taken => ih (first.2 s' taken) (second.2 s' taken)⟩

/-- Whether a run meets a discipline can be computed. -/
instance Along.decide [∀ s a, Decidable (D s a)] : ∀ s as, Decidable (Along step D s as)
  | _, [] => .isTrue trivial
  | s, a :: as =>
      have (s' : σ) : Decidable (Along step D s' as) := Along.decide s' as
      inferInstanceAs (Decidable (D s a ∧ ∀ s' ∈ step s a, Along step D s' as))

/-- Induction on the history of a run, its last step last. -/
theorem run_history {P : List α → σ → Prop} (start : P [] s)
    (extend : ∀ as t a t', run step s as = some t → P as t → step t a = some t' →
      P (as ++ [a]) t')
    (reached : run step s as = some t) : P as t := by
  induction as using List.reverseRecOn generalizing t with
  | nil => exact Option.some.inj reached ▸ start
  | append_singleton as a ih =>
      obtain ⟨s', earlier, last⟩ := run_snoc_eq_some.mp reached
      exact extend as s' a t earlier (ih earlier) last

/-- What every step preserves, disciplined or not, holds at the end of every run. -/
theorem run_invariant {I : σ → Prop} (preserved : ∀ s a s', I s → step s a = some s' → I s')
    (start : I s) (reached : run step s as = some t) : I t :=
  (along_of_all (D := fun _ _ => True) fun _ _ => trivial).invariant
    (fun s a s' holds _ taken => preserved s a s' holds taken) start reached

theorem along_snoc (reached : run step s as = some t) :
    Along step D s (as ++ [a]) ↔ Along step D s as ∧ D t a := by
  constructor
  · intro meets
    exact ⟨meets.append_left, (meets.append_right reached).1⟩
  · rintro ⟨meets, last⟩
    induction as generalizing s with
    | nil => exact ⟨Option.some.inj reached ▸ last, fun _ _ => trivial⟩
    | cons b bs ih =>
        obtain ⟨s', taken, rest⟩ := run_cons_eq_some.mp reached
        refine ⟨meets.1, fun u first => ?_⟩
        obtain rfl := Option.some.inj (taken.symm.trans first)
        exact ih rest (meets.2 s' taken)

/-- A longer run passes through the states of a shorter one. -/
theorem Visits.append (visited : Visits step s as t) : Visits step s (as ++ bs) t := by
  obtain ⟨before, after, rfl, reached⟩ := visited
  exact ⟨before, after ++ bs, List.append_assoc .., reached⟩

theorem visits_last (reached : run step s as = some t) : Visits step s as t :=
  ⟨as, [], (List.append_nil as).symm, reached⟩

/-- **The necessity rule.**  If a step into a state with `P` from one with `P` meets
`D`, every run whose states all have `P` meets `D` throughout. -/
theorem along_of_visited {P : σ → Prop}
    (forced : ∀ before t a t', run step s before = some t → P t → step t a = some t' → P t' →
      D t a)
    (reached : run step s as = some t) (all : ∀ u, Visits step s as u → P u) :
    Along step D s as := by
  refine run_history (P := fun as _ => (∀ u, Visits step s as u → P u) → Along step D s as)
    (fun _ => along_nil) ?_ reached all
  intro before u a u' prior ih taken holds
  have last : Visits step s (before ++ [a]) u' :=
    visits_last (run_snoc_eq_some.mpr ⟨u, prior, taken⟩)
  refine (along_snoc prior).mpr ⟨ih fun v visited => holds v visited.append, ?_⟩
  exact forced before u a u' prior (holds u (visits_last prior).append) taken (holds u' last)

end Run

end PatBase.Lib.Machine
