/-
# PatBase.Lib.Objects -- the live objects of a program

A program's objects of one type are a partial map from their names: `none` where
nothing is alive.  Objects come and go by `Function.update`; these are the lemmas about
what is alive after one did, and about invariants that every live object keeps.

Objects that own something (a descriptor, a lock) are given with `resource : β → Option κ`.
`Exclusive` says that no two live objects own the same; releasing, acquiring what nobody
holds and handing over from one object to another all keep it.
-/
import Mathlib.Logic.Function.Basic

namespace PatBase.Lib.Objects

set_option autoImplicit false
set_option linter.unusedSectionVars false

universe u v w

variable {ι : Type u} {β : Type v} {P : β → Prop} {f : ι → Option β} {i j : ι} {x y : β}

/-- Every live object has `P`. -/
def All (P : β → Prop) (f : ι → Option β) : Prop :=
  ∀ i x, f i = some x → P x

theorem all_none : All P fun _ : ι => none := by
  intro i x has
  cases has

variable [DecidableEq ι]

/-- The entries of a map after one has been set. -/
theorem update_eq_some (has : Function.update f i (some x) j = some y) :
    (j = i ∧ y = x) ∨ (j ≠ i ∧ f j = some y) := by
  by_cases same : j = i
  · rw [same, Function.update_self] at has
    exact .inl ⟨same, (Option.some.inj has).symm⟩
  · rw [Function.update_of_ne same] at has
    exact .inr ⟨same, has⟩

/-- The entries of a map after one has been erased. -/
theorem of_erased (has : Function.update f i none j = some y) : f j = some y := by
  by_cases same : j = i
  · rw [same, Function.update_self] at has
    cases has
  · rw [Function.update_of_ne same] at has
    exact has

theorem All.update (all : All P f) (holds : P x) : All P (Function.update f i (some x)) := by
  intro j y has
  rcases update_eq_some has with ⟨-, rfl⟩ | ⟨-, before⟩
  · exact holds
  · exact all j y before

theorem All.erase (all : All P f) : All P (Function.update f i none) :=
  fun j y has => all j y (of_erased has)

/-! ## Objects that own a resource -/

section Resource

variable {κ : Type w} {resource : β → Option κ} {k : κ}

/-- The object `i` is alive and owns `k`. -/
def Holds (resource : β → Option κ) (f : ι → Option β) (i : ι) (k : κ) : Prop :=
  ∃ x, f i = some x ∧ resource x = some k

/-- No two live objects own the same. -/
def Exclusive (resource : β → Option κ) (f : ι → Option β) : Prop :=
  ∀ i j k, Holds resource f i k → Holds resource f j k → i = j

theorem holds_iff (alive : f i = some x) : Holds resource f i k ↔ resource x = some k := by
  constructor
  · rintro ⟨y, has, owns⟩
    rw [Option.some.inj (alive.symm.trans has)]
    exact owns
  · intro owns
    exact ⟨x, alive, owns⟩

theorem holds_update : Holds resource (Function.update f i (some x)) j k ↔
    (j = i ∧ resource x = some k) ∨ (j ≠ i ∧ Holds resource f j k) := by
  constructor
  · rintro ⟨y, has, owns⟩
    rcases update_eq_some has with ⟨rfl, rfl⟩ | ⟨other, before⟩
    · exact .inl ⟨rfl, owns⟩
    · exact .inr ⟨other, y, before, owns⟩
  · rintro (⟨rfl, owns⟩ | ⟨other, y, has, owns⟩)
    · exact ⟨x, Function.update_self .., owns⟩
    · exact ⟨y, (Function.update_of_ne other ..).trans has, owns⟩

theorem holds_erase : Holds resource (Function.update f i none) j k ↔
    j ≠ i ∧ Holds resource f j k := by
  constructor
  · rintro ⟨y, has, owns⟩
    refine ⟨?_, y, of_erased has, owns⟩
    rintro rfl
    rw [Function.update_self] at has
    cases has
  · rintro ⟨other, y, has, owns⟩
    exact ⟨y, (Function.update_of_ne other ..).trans has, owns⟩

/-- Where nothing is alive, nothing is owned. -/
theorem not_holds (free : f i = none) : ¬ Holds resource f i k := by
  rintro ⟨x, has, -⟩
  rw [free] at has
  cases has

theorem exclusive_none : Exclusive resource fun _ : ι => none :=
  fun _ _ _ holds => absurd holds (not_holds rfl)

theorem Exclusive.erase (exclusive : Exclusive resource f) :
    Exclusive resource (Function.update f i none) := by
  intro j j' k holds holds'
  exact exclusive j j' k (holds_erase.mp holds).2 (holds_erase.mp holds').2

/-- An object gets what nobody else owns, and gives up what it had. -/
theorem Exclusive.acquire (exclusive : Exclusive resource f)
    (fresh : ∀ j k, j ≠ i → resource x = some k → ¬ Holds resource f j k) :
    Exclusive resource (Function.update f i (some x)) := by
  intro j j' k holds holds'
  rcases holds_update.mp holds with ⟨rfl, owns⟩ | ⟨other, before⟩
  · rcases holds_update.mp holds' with ⟨rfl, -⟩ | ⟨other', before'⟩
    · rfl
    · exact absurd before' (fresh j' k other' owns)
  · rcases holds_update.mp holds' with ⟨rfl, owns'⟩ | ⟨-, before'⟩
    · exact absurd before (fresh j k other owns')
    · exact exclusive j j' k before before'

/-- `j` hands what it owns over to `i`, which lets go of what it had. -/
theorem holds_handOver (apart : j ≠ i) (given : f j = some x) (empty : resource y = none)
    {j' : ι} : Holds resource (Function.update (Function.update f i (some x)) j (some y)) j' k ↔
      (j' = i ∧ Holds resource f j k) ∨ (j' ≠ i ∧ j' ≠ j ∧ Holds resource f j' k) := by
  rw [holds_update, holds_update, empty, holds_iff given]
  constructor
  · rintro (⟨-, none_⟩ | ⟨other, ⟨rfl, owns⟩ | ⟨other', before⟩⟩)
    · cases none_
    · exact .inl ⟨rfl, owns⟩
    · exact .inr ⟨other', other, before⟩
  · rintro (⟨rfl, owns⟩ | ⟨other', other, before⟩)
    · exact .inr ⟨Ne.symm apart, .inl ⟨rfl, owns⟩⟩
    · exact .inr ⟨other, .inr ⟨other', before⟩⟩

theorem Exclusive.handOver (exclusive : Exclusive resource f) (apart : j ≠ i)
    (given : f j = some x) (empty : resource y = none) :
    Exclusive resource (Function.update (Function.update f i (some x)) j (some y)) := by
  intro a b k holds holds'
  rcases (holds_handOver apart given empty).mp holds with ⟨rfl, before⟩ | ⟨-, other, before⟩
  · rcases (holds_handOver apart given empty).mp holds' with ⟨rfl, -⟩ | ⟨-, other', before'⟩
    · rfl
    · exact absurd (exclusive b j k before' before) other'
  · rcases (holds_handOver apart given empty).mp holds' with ⟨rfl, before'⟩ | ⟨-, -, before'⟩
    · exact absurd (exclusive a j k before before') other
    · exact exclusive a b k before before'

end Resource

end PatBase.Lib.Objects
