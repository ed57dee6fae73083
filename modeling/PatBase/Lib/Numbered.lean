/-
# PatBase.Lib.Numbered -- putting a log together by its numbers

The entries of a log carry numbers, and each gives a list.  Where the entries that give
something stand in the order of their numbers, what all give is what each number gives,
in order (`flatMap_range`).
-/
import Mathlib.Data.List.Range

namespace PatBase.Lib.Numbered

set_option autoImplicit false

universe u v

section Numbered

variable {α : Type u} {β : Type v} {entries : List (Nat × α)} {n : Nat}

/-- What the entries with the number `i` give. -/
def numbered (entries : List (Nat × α)) (give : Nat × α → List β) (i : Nat) : List β :=
  (entries.filter fun e => e.1 = i).flatMap give

theorem flatMap_filter {give : Nat × α → List β} {p : Nat × α → Bool}
    (silent : ∀ e ∈ entries, p e = false → give e = []) :
    (entries.filter p).flatMap give = entries.flatMap give := by
  induction entries with
  | nil => rfl
  | cons e rest ih =>
      have later := ih fun other member => silent other (List.mem_cons_of_mem _ member)
      rw [List.filter_cons, List.flatMap_cons]
      split
      · rw [List.flatMap_cons, later]
      · rename_i out
        rw [later, silent e List.mem_cons_self (Bool.not_eq_true _ ▸ out), List.nil_append]

/-- The entries with the greatest number are the last ones. -/
theorem filter_lt_append_filter_eq (increasing : entries.Pairwise fun e e' => e.1 ≤ e'.1)
    (below : ∀ e ∈ entries, e.1 < n + 1) :
    entries.filter (fun e => e.1 < n) ++ entries.filter (fun e => e.1 = n) = entries := by
  induction entries with
  | nil => rfl
  | cons e rest ih =>
      obtain ⟨first, increasing⟩ := List.pairwise_cons.mp increasing
      have later := ih increasing fun other member => below other (List.mem_cons_of_mem _ member)
      have bound := below e List.mem_cons_self
      by_cases small : e.1 < n
      · have other : ¬ e.1 = n := Nat.ne_of_lt small
        rw [List.filter_cons_of_pos (by simpa using small),
          List.filter_cons_of_neg (by simpa using other), List.cons_append, later]
      · -- from here on all have the number `n`
        have nothing : rest.filter (fun e => e.1 < n) = [] := by
          apply List.filter_eq_nil_iff.mpr
          intro other member less
          have larger := first other member
          have less' : other.1 < n := of_decide_eq_true less
          omega
        rw [nothing, List.nil_append] at later
        have last : e.1 = n := by omega
        rw [List.filter_cons_of_neg (by simpa using small),
          List.filter_cons_of_pos (by simpa using last), nothing, List.nil_append, later]

theorem flatMap_range_of_increasing (give : Nat × α → List β)
    (increasing : entries.Pairwise fun e e' => e.1 ≤ e'.1) (below : ∀ e ∈ entries, e.1 < n) :
    (List.range n).flatMap (numbered entries give) = entries.flatMap give := by
  induction n generalizing entries with
  | zero =>
      have empty : entries = [] := by
        apply List.eq_nil_iff_forall_not_mem.mpr
        intro e member
        exact absurd (below e member) (Nat.not_lt_zero _)
      rw [empty]
      rfl
  | succ n ih =>
      have split := filter_lt_append_filter_eq increasing below
      have earlier := ih (increasing.filter fun e => e.1 < n) fun e member =>
        of_decide_eq_true (List.mem_filter.mp member).2
      have same : (List.range n).flatMap (numbered entries give) =
          (List.range n).flatMap (numbered (entries.filter fun e => e.1 < n) give) := by
        apply List.flatMap_congr
        intro i small
        rw [numbered, numbered, List.filter_filter]
        congr 1
        apply List.filter_congr
        intro e _
        have less := List.mem_range.mp small
        rw [Bool.eq_iff_iff]
        simp only [decide_eq_true_eq, Bool.and_eq_true]
        omega
      rw [List.range_succ, List.flatMap_append, List.flatMap_singleton, same, earlier, numbered,
        ← List.flatMap_append, split]

/-- **By their numbers.**  Where the entries that give something come in the order of
their numbers, what all give is what each number gives, in order. -/
theorem flatMap_range {give : Nat × α → List β} {p : Nat × α → Bool}
    (silent : ∀ e ∈ entries, p e = false → give e = [])
    (increasing : (entries.filter p).Pairwise fun e e' => e.1 ≤ e'.1)
    (below : ∀ e ∈ entries, e.1 < n) :
    (List.range n).flatMap (numbered entries give) = entries.flatMap give := by
  have filtered := flatMap_range_of_increasing give increasing fun e member =>
    below e (List.mem_of_mem_filter member)
  rw [← flatMap_filter silent, ← filtered]
  apply List.flatMap_congr
  intro i _
  have silent' : ∀ e ∈ entries.filter (fun e => e.1 = i), p e = false → give e = [] :=
    fun e member => silent e (List.mem_of_mem_filter member)
  rw [numbered, ← flatMap_filter silent', numbered, List.filter_filter, List.filter_filter]
  simp only [Bool.and_comm]

end Numbered

end PatBase.Lib.Numbered
