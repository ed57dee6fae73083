/-
# PatBase.Lib.IntrusiveList -- lists threaded through their own nodes

A node's link is its successor; `none` is null.  `Path next p xs` says that
following the links from `p` visits the nodes of `xs`, in order, and then finds
null.  `follow` takes a number of links, so that "reached from `p`" has a meaning
before anything is known of the shape; on a path the nodes reached are its
members (`Path.reaches_iff`).  `Path.append` says how the last node takes a successor.
-/
import Mathlib.Data.List.Nodup
import Mathlib.Logic.Function.Basic

namespace PatBase.Lib.IntrusiveList

set_option autoImplicit false

universe u

variable {ν : Type u}

def Path (next : ν → Option ν) : Option ν → List ν → Prop
  | p, [] => p = none
  | p, x :: xs => p = some x ∧ Path next (next x) xs

/-- The node after `n` links from `p`. -/
def follow (next : ν → Option ν) : Nat → Option ν → Option ν
  | 0, p => p
  | n + 1, p => follow next n (p.bind next)

def Reaches (next : ν → Option ν) (p : Option ν) (x : ν) : Prop :=
  ∃ n, follow next n p = some x

section

variable {next next' : ν → Option ν} {p : Option ν} {x y : ν} {xs ys : List ν}

theorem follow_none (n : Nat) : follow next n none = none := by
  induction n with
  | zero => rfl
  | succ n ih => exact ih

/-- A bounded check that a node is not reached. -/
theorem not_reaches_of_ends {k : Nat} (ends : follow next k p = none)
    (absent : ∀ n, n < k → follow next n p ≠ some x) : ¬ Reaches next p x := by
  induction k generalizing p with
  | zero =>
      rintro ⟨n, found⟩
      obtain rfl : p = none := ends
      rw [follow_none] at found
      cases found
  | succ k ih =>
      rintro ⟨n, found⟩
      cases n with
      | zero => exact absent 0 (Nat.zero_lt_succ k) found
      | succ n =>
          exact ih ends (fun m lt => absent (m + 1) (Nat.succ_lt_succ lt)) ⟨n, found⟩

theorem Path.head_eq (path : Path next p xs) : p = xs.head? := by
  cases xs with
  | nil => exact path
  | cons x xs => exact path.1

/-- The links determine the list. -/
theorem Path.unique (left : Path next p xs) (right : Path next p ys) : xs = ys := by
  induction xs generalizing p ys with
  | nil =>
      cases ys with
      | nil => rfl
      | cons y ys => cases left.symm.trans right.1
  | cons x xs ih =>
      cases ys with
      | nil => cases right.symm.trans left.1
      | cons y ys =>
          obtain rfl := Option.some.inj (left.1.symm.trans right.1)
          rw [ih left.2 right.2]

theorem Path.reaches_iff (path : Path next p xs) : Reaches next p x ↔ x ∈ xs := by
  induction xs generalizing p with
  | nil =>
      obtain rfl : p = none := path
      simp [Reaches, follow_none]
  | cons y ys ih =>
      obtain ⟨rfl, rest⟩ := path
      rw [List.mem_cons, ← ih rest]
      constructor
      · rintro ⟨n, found⟩
        cases n with
        | zero => exact .inl (Option.some.inj found).symm
        | succ n => exact .inr ⟨n, found⟩
      · rintro (rfl | ⟨n, found⟩)
        · exact ⟨0, rfl⟩
        · exact ⟨n + 1, found⟩

/-- The last node's link is null. -/
theorem Path.last_next (path : Path next p xs) (last : xs.getLast? = some x) :
    next x = none := by
  induction xs generalizing p with
  | nil => cases last
  | cons y ys ih =>
      cases ys with
      | nil =>
          obtain rfl : y = x := by simpa using last
          exact path.2
      | cons z zs => exact ih path.2 (by simpa using last)

section Update

variable [DecidableEq ν]

/-- A fresh node with a null link, linked behind the last one, extends the path. -/
theorem Path.append (path : Path next p xs) (nodup : xs.Nodup) (fresh : x ∉ xs)
    (last : xs.getLast? = some y) :
    Path (Function.update (Function.update next y (some x)) x none) p (xs ++ [x]) := by
  induction xs generalizing p with
  | nil => cases last
  | cons z zs ih =>
      obtain ⟨zFresh, nodupRest⟩ := List.nodup_cons.mp nodup
      have freshRest : x ∉ zs := fun member => fresh (List.mem_cons_of_mem z member)
      have xz : z ≠ x := fun same => fresh (same ▸ List.mem_cons_self)
      refine ⟨path.1, ?_⟩
      rw [Function.update_of_ne xz]
      cases zs with
      | nil =>
          obtain rfl : z = y := by simpa using last
          rw [Function.update_self]
          exact ⟨rfl, Function.update_self _ _ _⟩
      | cons w ws =>
          have lastRest : (w :: ws).getLast? = some y := by simpa using last
          have zy : z ≠ y := fun same => zFresh (same ▸ List.mem_of_getLast? lastRest)
          rw [Function.update_of_ne zy]
          exact ih path.2 nodupRest freshRest lastRest

end Update

end

end PatBase.Lib.IntrusiveList
