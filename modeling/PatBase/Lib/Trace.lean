/-
# PatBase.Lib.Trace -- call traces, and refinement of one object by another

An object answers calls: `call s i` gives the answer and the next state, or an
error.  `trace` collects the answers to a list of calls.  A specification object
never fails (`specTrace`).  `trace_refines` and `specTrace_refines` are the refinement
rule: a relation that one call keeps, with equal answers, makes whole traces equal.
-/
import Mathlib.Data.List.Basic

namespace PatBase.Lib.Trace

set_option autoImplicit false

universe u v w x

variable {σ : Type u} {τ : Type v} {ι ο : Type w} {ε : Type x}

/-- The answers to the calls, and the state they leave; the first error ends it. -/
def trace (call : σ → ι → Except ε (ο × σ)) : σ → List ι → Except ε (List ο × σ)
  | s, [] => .ok ([], s)
  | s, i :: is =>
      match call s i with
      | .error e => .error e
      | .ok (o, s') =>
          match trace call s' is with
          | .error e => .error e
          | .ok (os, s'') => .ok (o :: os, s'')

/-- The trace of an object whose calls always succeed. -/
def specTrace (spec : τ → ι → ο × τ) : τ → List ι → List ο × τ
  | q, [] => ([], q)
  | q, i :: is =>
      let answered := spec q i
      let rest := specTrace spec answered.2 is
      (answered.1 :: rest.1, rest.2)

theorem trace_cons_eq_ok {call : σ → ι → Except ε (ο × σ)} {s : σ} {i : ι} {is : List ι}
    {os : List ο} {t : σ} (completed : trace call s (i :: is) = .ok (os, t)) :
    ∃ o s' rest, call s i = .ok (o, s') ∧ trace call s' is = .ok (rest, t) ∧ os = o :: rest := by
  simp only [trace] at completed
  split at completed
  · cases completed
  · rename_i o s' answered
    split at completed
    · cases completed
    · rename_i rest s'' traced
      cases completed
      exact ⟨o, s', rest, answered, traced, rfl⟩

/-- **The refinement rule.**  A relation kept by one call, with the answer of the
specification, gives the specification's answers to every trace. -/
theorem trace_refines {call : σ → ι → Except ε (ο × σ)} {spec : τ → ι → ο × τ}
    {R : σ → τ → Prop}
    (simulates : ∀ s q i o s', R s q → call s i = .ok (o, s') →
      o = (spec q i).1 ∧ R s' (spec q i).2)
    {s : σ} {q : τ} {is : List ι} {os : List ο} {t : σ}
    (related : R s q) (completed : trace call s is = .ok (os, t)) :
    os = (specTrace spec q is).1 ∧ R t (specTrace spec q is).2 := by
  induction is generalizing s q os with
  | nil =>
      cases completed
      exact ⟨rfl, related⟩
  | cons i is ih =>
      obtain ⟨o, s', rest, answered, traced, rfl⟩ := trace_cons_eq_ok completed
      obtain ⟨same, related'⟩ := simulates s q i o s' related answered
      obtain ⟨sameRest, relatedEnd⟩ := ih related' traced
      refine ⟨?_, relatedEnd⟩
      rw [same, sameRest]
      rfl

/-- A trace stops at one of its calls, in the state the calls before it left. -/
theorem trace_eq_error {call : σ → ι → Except ε (ο × σ)} {s : σ} {is : List ι} {e : ε}
    (stopped : trace call s is = .error e) :
    ∃ before i after os t, is = before ++ i :: after ∧ trace call s before = .ok (os, t) ∧
      call t i = .error e := by
  induction is generalizing s with
  | nil => cases stopped
  | cons i is ih =>
      simp only [trace] at stopped
      split at stopped
      · rename_i thrown
        cases stopped
        exact ⟨[], i, is, [], s, rfl, rfl, thrown⟩
      · rename_i o s' answered
        split at stopped
        · rename_i inRest
          cases stopped
          obtain ⟨before, j, after, os, t, split, earlier, thrown⟩ := ih inRest
          refine ⟨i :: before, j, after, o :: os, t, ?_, ?_, thrown⟩
          · rw [split, List.cons_append]
          · simp only [trace, answered, earlier]
        · cases stopped

/-- The refinement rule between two objects that never fail. -/
theorem specTrace_refines {impl : σ → ι → ο × σ} {spec : τ → ι → ο × τ} {R : σ → τ → Prop}
    (simulates : ∀ s q i, R s q → (impl s i).1 = (spec q i).1 ∧ R (impl s i).2 (spec q i).2)
    {s : σ} {q : τ} (related : R s q) (is : List ι) :
    (specTrace impl s is).1 = (specTrace spec q is).1 ∧
      R (specTrace impl s is).2 (specTrace spec q is).2 := by
  induction is generalizing s q with
  | nil => exact ⟨rfl, related⟩
  | cons i is ih =>
      obtain ⟨same, related'⟩ := simulates s q i related
      obtain ⟨sameRest, relatedEnd⟩ := ih related'
      refine ⟨?_, relatedEnd⟩
      simp only [specTrace, same, sameRest]

theorem specTrace_append (spec : τ → ι → ο × τ) (q : τ) (is js : List ι) :
    specTrace spec q (is ++ js) =
      ((specTrace spec q is).1 ++ (specTrace spec (specTrace spec q is).2 js).1,
        (specTrace spec (specTrace spec q is).2 js).2) := by
  induction is generalizing q with
  | nil => rfl
  | cons i is ih => simp only [List.cons_append, specTrace, ih]

/-- The last call of a trace. -/
theorem specTrace_snoc (spec : τ → ι → ο × τ) (q : τ) (is : List ι) (i : ι) :
    specTrace spec q (is ++ [i]) =
      ((specTrace spec q is).1 ++ [(spec (specTrace spec q is).2 i).1],
        (spec (specTrace spec q is).2 i).2) := by
  rw [specTrace_append]
  rfl

theorem specTrace_map {κ : Type w} (spec : τ → ι → ο × τ) (f : κ → ι) (q : τ) (ks : List κ) :
    specTrace (fun q k => spec q (f k)) q ks = specTrace spec q (ks.map f) := by
  induction ks generalizing q with
  | nil => rfl
  | cons k ks ih => simp only [specTrace, List.map_cons, ih]

end PatBase.Lib.Trace
