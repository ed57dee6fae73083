/-
# PatBase.Lib.Effect -- stateful code that may throw

`EStateM ε σ` is C++ member code: it changes the state step by step, and an
exception leaves the state as the steps before it made it.  The lemmas peel a
completed computation apart at its binds, so that a proof about a sequence cites
the lemmas of its parts.
-/
import Mathlib.Data.List.Basic

namespace PatBase.Lib.Effect

set_option autoImplicit false

variable {ε σ α β : Type}

/-- A library call that may throw and does not touch the state. -/
def throwing : Except ε α → EStateM ε σ α
  | .ok a => pure a
  | .error e => throw e

/-- The answer and the state of a completed computation. -/
def runExcept (x : EStateM ε σ α) (s : σ) : Except ε (α × σ) :=
  match x s with
  | .ok a s' => .ok (a, s')
  | .error e _ => .error e

theorem runExcept_eq_ok {x : EStateM ε σ α} {s s' : σ} {a : α} :
    runExcept x s = .ok (a, s') ↔ x s = .ok a s' := by
  unfold runExcept
  cases x s <;> simp

theorem runExcept_eq_error {x : EStateM ε σ α} {s : σ} {e : ε} :
    runExcept x s = .error e ↔ ∃ s', x s = .error e s' := by
  unfold runExcept
  cases x s <;> simp

theorem bind_eq_ok {x : EStateM ε σ α} {f : α → EStateM ε σ β} {s t : σ} {b : β} :
    (x >>= f) s = .ok b t ↔ ∃ a s', x s = .ok a s' ∧ f a s' = .ok b t := by
  show EStateM.bind x f s = .ok b t ↔ _
  unfold EStateM.bind
  cases x s <;> simp

/-- A throw comes out of the first part, or out of the second after the first
completed. -/
theorem bind_eq_error {x : EStateM ε σ α} {f : α → EStateM ε σ β} {s t : σ} {e : ε} :
    (x >>= f) s = .error e t ↔
      x s = .error e t ∨ ∃ a s', x s = .ok a s' ∧ f a s' = .error e t := by
  show EStateM.bind x f s = .error e t ↔ _
  unfold EStateM.bind
  cases x s <;> simp

theorem pure_ne_error {s t : σ} {a : α} {e : ε} :
    (pure a : EStateM ε σ α) s ≠ .error e t := nofun

theorem get_ne_error {s t : σ} {e : ε} : (get : EStateM ε σ σ) s ≠ .error e t := nofun

theorem set_ne_error {s t r : σ} {e : ε} : (set r : EStateM ε σ PUnit) s ≠ .error e t := nofun

theorem modify_ne_error {f : σ → σ} {s t : σ} {e : ε} :
    (modify f : EStateM ε σ PUnit) s ≠ .error e t := nofun

theorem throwing_eq_error {x : Except ε α} {s t : σ} {e : ε} :
    throwing x s = .error e t ↔ x = .error e ∧ s = t := by
  cases x with
  | ok b =>
      show EStateM.Result.ok b s = .error e t ↔ _
      simp
  | error d =>
      show EStateM.Result.error d s = .error e t ↔ _
      simp

theorem pure_eq_ok {s t : σ} {a b : α} :
    (pure a : EStateM ε σ α) s = .ok b t ↔ a = b ∧ s = t := by
  show EStateM.Result.ok a s = .ok b t ↔ _
  simp

theorem get_eq_ok {s t r : σ} :
    (get : EStateM ε σ σ) s = .ok r t ↔ s = r ∧ s = t := by
  show EStateM.Result.ok s s = .ok r t ↔ _
  simp

theorem set_eq_ok {s t r : σ} {u : PUnit} :
    (set r : EStateM ε σ PUnit) s = .ok u t ↔ r = t := by
  show EStateM.Result.ok PUnit.unit r = .ok u t ↔ _
  simp

theorem modify_eq_ok {f : σ → σ} {s t : σ} {u : PUnit} :
    (modify f : EStateM ε σ PUnit) s = .ok u t ↔ f s = t := by
  show EStateM.Result.ok PUnit.unit (f s) = .ok u t ↔ _
  simp

theorem throwing_eq_ok {x : Except ε α} {s t : σ} {a : α} :
    throwing x s = .ok a t ↔ x = .ok a ∧ s = t := by
  cases x with
  | ok b => simp [throwing, pure_eq_ok]
  | error e =>
      show EStateM.Result.error e s = .ok a t ↔ _
      simp

end PatBase.Lib.Effect
