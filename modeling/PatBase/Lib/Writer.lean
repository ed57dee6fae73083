/-
# PatBase.Lib.Writer -- writers, their count, and the loop that relies on it

A writer is given by its successful writes: `write s m k s'` says that a write of `m`
in state `s` may complete with the count `k` in state `s'`.  The contract of the
count is that exactly the first `k` bytes of `m` were accepted.  A caller that gets
`k` and goes on with the rest of the message (`Loop`) has, at every moment, delivered
exactly what it no longer holds.
-/
import PatBase.Lib.StdString

namespace PatBase.Lib

set_option autoImplicit false

structure Writer (σ : Type) where
  write : σ → Span → Nat → σ → Prop
  /-- What the sink has accepted. -/
  sink : σ → List UInt8

namespace Writer

variable {σ : Type} {w : Writer σ} {s s' : σ} {m rest : Span}

/-- The count of every successful write of `m` is what the sink took of it. -/
def HonoursCount (w : Writer σ) (m : Span) : Prop :=
  ∀ s k s', w.write s m k s' → k ≤ m.size ∧ w.sink s' = w.sink s ++ m.1.take k

/-- Writing what is left until nothing is: the last two arguments are the state and
the rest of the message after some of the writes. -/
inductive Loop (w : Writer σ) (s : σ) (m : Span) : σ → Span → Prop where
  | start : Loop w s m s m
  | write {s₁ s₂ : σ} {rest : Span} {k : Nat} (sofar : Loop w s m s₁ rest)
      (left : rest.1 ≠ []) (completed : w.write s₁ rest k s₂) : Loop w s m s₂ (rest.drop k)

/-- Nothing is lost or written twice on the way. -/
theorem Loop.sink_append_rest (honours : ∀ m, w.HonoursCount m) (loop : Loop w s m s' rest) :
    w.sink s' ++ rest.1 = w.sink s ++ m.1 := by
  induction loop with
  | start => rfl
  | write sofar left completed ih =>
      rename_i rest k
      obtain ⟨-, accepted⟩ := honours rest _ _ _ completed
      rw [accepted, ← ih, List.append_assoc]
      show _ ++ (rest.1.take k ++ rest.1.drop k) = _
      rw [List.take_append_drop]

/-- An empty message is never written. -/
theorem Loop.of_empty (loop : Loop w s m s' rest) (empty : m.1 = []) :
    s' = s ∧ rest = m := by
  induction loop with
  | start => exact ⟨rfl, rfl⟩
  | write sofar left completed ih =>
      obtain ⟨-, rfl⟩ := ih
      exact absurd empty left

end Writer

end PatBase.Lib
