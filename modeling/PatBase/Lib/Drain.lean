/-
# PatBase.Lib.Drain -- reading until the end

A source holds a finite list and answers each read with a piece of it, or with `none`
for the end.  `loop` reads until the end and puts the pieces together.  Sources may
lose data on the way, so what `loop` makes is not always what was held.

A read may also give nothing yet, without being the end, but not for ever.

`Honest.drains_iff` is the rule for such loops: they stop with all that the source holds,
and every read of an exhausted source says so, exactly as long as every read of the
sequence signals the end when nothing is left and loses nothing.
-/
import Mathlib.Data.List.Basic

namespace PatBase.Lib

set_option autoImplicit false

universe u v w

structure Drain (σ : Type u) (ι : Type v) (β : Type w) where
  /-- `none` is the end. -/
  read : σ → ι → Option (List β) × σ
  /-- What is still to come. -/
  data : σ → List β

namespace Drain

variable {σ : Type u} {ι : Type v} {β : Type w} (d : Drain σ ι β)

def delivered (s : σ) (i : ι) : List β := (d.read s i).1.getD []

/-- The state after `k` reads. -/
def after : σ → (Nat → ι) → Nat → σ
  | s, _, 0 => s
  | s, inputs, k + 1 => after (d.read s (inputs 0)).2 (fun n => inputs (n + 1)) k

/-- Read until the end, at most `fuel` times. -/
def loop : Nat → σ → (Nat → ι) → Option (List β)
  | 0, _, _ => none
  | fuel + 1, s, inputs =>
      match d.read s (inputs 0) with
      | (none, _) => some []
      | (some piece, s') => (loop fuel s' fun n => inputs (n + 1)).map (piece ++ ·)

/-- A read of an exhausted source gives the end. -/
def Signals (s : σ) (i : ι) : Prop := d.data s = [] → (d.read s i).1 = none

/-- A read loses nothing. -/
def Conserves (s : σ) (i : ι) : Prop :=
  (d.data s).length ≤ (d.delivered s i).length + (d.data (d.read s i).2).length

/-- What every source does for valid reads: its end is the end, sooner or later one of
them gives something if it holds anything, and what it still holds after a read comes
right behind the piece, with its tail cut off if data was lost. -/
structure Honest (valid : ι → Prop) : Prop where
  ended : ∀ s i, valid i → (d.read s i).1 = none → d.data s = []
  progress : ∀ s inputs, (∀ n, valid (inputs n)) → ∃ k, d.data (d.after s inputs k) = [] ∨
    d.delivered (d.after s inputs k) (inputs k) ≠ []
  pieces : ∀ s i, valid i → ∃ lost,
    d.data s = d.delivered s i ++ (d.data (d.read s i).2 ++ lost)

section Loop

variable {d} {valid : ι → Prop} {s : σ} {i : ι} {inputs : Nat → ι}

theorem delivered_of_some {piece : List β} {s' : σ} (read : d.read s i = (some piece, s')) :
    d.delivered s i = piece := by
  rw [delivered, read]
  rfl

theorem state_of_read {answer : Option (List β)} {s' : σ} (read : d.read s i = (answer, s')) :
    (d.read s i).2 = s' :=
  congrArg Prod.snd read

theorem Honest.length_le (honest : d.Honest valid) (asked : valid i) :
    (d.delivered s i).length + (d.data (d.read s i).2).length ≤ (d.data s).length := by
  obtain ⟨lost, split⟩ := honest.pieces s i asked
  rw [split]
  simp only [List.length_append]
  omega

/-- A read that loses nothing takes its piece off the front. -/
theorem Honest.split (honest : d.Honest valid) (asked : valid i) (conserves : d.Conserves s i) :
    d.data s = d.delivered s i ++ d.data (d.read s i).2 := by
  obtain ⟨lost, split⟩ := honest.pieces s i asked
  have nothing : lost = [] := by
    apply List.length_eq_zero_iff.mp
    have lengths := congrArg List.length split
    unfold Conserves at conserves
    simp only [List.length_append] at lengths
    omega
  rw [nothing, List.append_nil] at split
  exact split

/-- An exhausted source has nothing to lose, and stays exhausted. -/
theorem Honest.exhausted (honest : d.Honest valid) (asked : valid i) (empty : d.data s = []) :
    d.Conserves s i ∧ d.data (d.read s i).2 = [] := by
  have bound := honest.length_le (s := s) asked
  rw [empty, List.length_nil] at bound
  constructor
  · rw [Conserves, empty]
    exact Nat.zero_le _
  · exact List.length_eq_zero_iff.mp (by omega)

theorem Honest.conserves_after (honest : d.Honest valid) (asked : ∀ n, valid (inputs n))
    (empty : d.data s = []) (k : Nat) : d.Conserves (d.after s inputs k) (inputs k) := by
  induction k generalizing s inputs with
  | zero => exact (honest.exhausted (asked 0) empty).1
  | succ k ih => exact ih (fun n => asked (n + 1)) (honest.exhausted (asked 0) empty).2

theorem loop_of_none {s' : σ} (read : d.read s (inputs 0) = (none, s')) (fuel : Nat) :
    d.loop (fuel + 1) s inputs = some [] := by
  rw [loop, read]

theorem loop_of_some {piece : List β} {s' : σ} (read : d.read s (inputs 0) = (some piece, s'))
    (fuel : Nat) : d.loop (fuel + 1) s inputs =
      (d.loop fuel s' fun n => inputs (n + 1)).map (piece ++ ·) := by
  rw [loop, read]

/-- The pieces together are no more than what was held. -/
theorem Honest.loop_length_le (honest : d.Honest valid) (asked : ∀ n, valid (inputs n))
    {fuel : Nat} {out : List β} (stopped : d.loop fuel s inputs = some out) :
    out.length ≤ (d.data s).length := by
  induction fuel generalizing s inputs out with
  | zero => cases stopped
  | succ fuel ih =>
      have bound := honest.length_le (s := s) (asked 0)
      rcases read : d.read s (inputs 0) with ⟨answer, s'⟩
      cases answer with
      | none =>
          rw [loop_of_none read] at stopped
          cases stopped
          exact Nat.zero_le _
      | some piece =>
          rw [loop_of_some read] at stopped
          obtain ⟨rest, later, rfl⟩ := Option.map_eq_some_iff.mp stopped
          have tail := ih (fun n => asked (n + 1)) later
          rw [delivered_of_some read, state_of_read read] at bound
          simp only [List.length_append]
          omega

/-- Good reads, seen from the second one on. -/
theorem good_tail {answer : Option (List β)} {s' : σ} (read : d.read s (inputs 0) = (answer, s'))
    (good : ∀ k, d.Signals (d.after s inputs k) (inputs k) ∧
      d.Conserves (d.after s inputs k) (inputs k)) (k : Nat) :
    d.Signals (d.after s' (fun n => inputs (n + 1)) k) (inputs (k + 1)) ∧
      d.Conserves (d.after s' (fun n => inputs (n + 1)) k) (inputs (k + 1)) := by
  have here := good (k + 1)
  rw [after, read] at here
  exact here

/-- Where the end is read, or the loop stops with everything behind a piece, it stops with
everything. -/
theorem Honest.loop_stops_of_rest (honest : d.Honest valid) (asked : valid (inputs 0))
    (conserves : d.Conserves s (inputs 0))
    (rest : ∀ piece s', d.read s (inputs 0) = (some piece, s') → d.data s = piece ++ d.data s' →
      ∃ fuel, d.loop fuel s' (fun n => inputs (n + 1)) = some (d.data s')) :
    ∃ fuel, d.loop fuel s inputs = some (d.data s) := by
  rcases read : d.read s (inputs 0) with ⟨answer, s'⟩
  cases answer with
  | none =>
      have empty := honest.ended s (inputs 0) asked (congrArg Prod.fst read)
      exact ⟨1, by rw [loop_of_none read, empty]⟩
  | some piece =>
      have split := honest.split asked conserves
      rw [delivered_of_some read, state_of_read read] at split
      obtain ⟨fuel, stopped⟩ := rest piece s' read split
      exact ⟨fuel + 1, by rw [loop_of_some read, stopped, split]; rfl⟩

/-- Reads that signal and lose nothing bring the loop to its end with everything: each
of them is the end, or makes what is left shorter, or brings nearer one that does. -/
theorem Honest.loop_stops (honest : d.Honest valid) (asked : ∀ n, valid (inputs n))
    (good : ∀ k, d.Signals (d.after s inputs k) (inputs k) ∧
      d.Conserves (d.after s inputs k) (inputs k)) :
    ∃ fuel, d.loop fuel s inputs = some (d.data s) := by
  generalize size : (d.data s).length = n
  induction n using Nat.strongRecOn generalizing s inputs with
  | ind n shorter =>
      have less : ∀ piece rest : List β, d.data s = piece ++ rest → piece ≠ [] →
          rest.length < n := by
        intro piece rest split gives
        have piecePos := List.length_pos_iff.mpr gives
        rw [← size, split, List.length_append]
        omega
      -- how many reads it takes until one gives something
      obtain ⟨k, sooner⟩ := honest.progress s inputs asked
      induction k generalizing s inputs with
      | zero =>
          refine honest.loop_stops_of_rest (asked 0) (good 0).2 fun piece s' read split => ?_
          have gives : piece ≠ [] := by
            rcases sooner with empty | gives
            · cases (congrArg Prod.fst read).symm.trans ((good 0).1 empty)
            · exact delivered_of_some read ▸ gives
          exact shorter _ (less piece _ split gives) (fun n => asked (n + 1))
            (good_tail read good) rfl
      | succ k ih =>
          refine honest.loop_stops_of_rest (asked 0) (good 0).2 fun piece s' read split => ?_
          by_cases nothing : piece = []
          · rw [nothing, List.nil_append] at split
            rw [after, read] at sooner
            exact ih (fun n => asked (n + 1)) (good_tail read good) (split ▸ size)
              (split ▸ less) sooner
          · exact shorter _ (less piece _ split nothing) (fun n => asked (n + 1))
              (good_tail read good) rfl

/-- A loop that stops with everything has lost nothing on the way. -/
theorem Honest.conserves_of_loop (honest : d.Honest valid) (asked : ∀ n, valid (inputs n))
    {fuel : Nat} (stopped : d.loop fuel s inputs = some (d.data s)) (k : Nat) :
    d.Conserves (d.after s inputs k) (inputs k) := by
  induction fuel generalizing s inputs k with
  | zero => cases stopped
  | succ fuel ih =>
      rcases read : d.read s (inputs 0) with ⟨answer, s'⟩
      cases answer with
      | none =>
          have empty := honest.ended s (inputs 0) (asked 0) (congrArg Prod.fst read)
          exact honest.conserves_after asked empty k
      | some piece =>
          rw [loop_of_some read] at stopped
          obtain ⟨rest, later, whole⟩ := Option.map_eq_some_iff.mp stopped
          have tail := honest.loop_length_le (fun n => asked (n + 1)) later
          have lengths : (d.data s).length = piece.length + rest.length := by
            rw [← whole, List.length_append]
          have bound := honest.length_le (s := s) (asked 0)
          rw [delivered_of_some read, state_of_read read] at bound
          have here : d.Conserves s (inputs 0) := by
            rw [Conserves, delivered_of_some read, state_of_read read]
            omega
          have split := honest.split (asked 0) here
          rw [delivered_of_some read, state_of_read read] at split
          have same : rest = d.data s' := List.append_cancel_left (whole.trans split)
          cases k with
          | zero => exact here
          | succ k =>
              rw [after, read]
              exact ih (fun n => asked (n + 1)) (same ▸ later) k

/-- **The rule for loops that read until the end.** -/
theorem Honest.drains_iff (honest : d.Honest valid) (asked : ∀ n, valid (inputs n)) :
    ((∀ k, d.Signals (d.after s inputs k) (inputs k)) ∧
        ∃ fuel, d.loop fuel s inputs = some (d.data s)) ↔
      ∀ k, d.Signals (d.after s inputs k) (inputs k) ∧
        d.Conserves (d.after s inputs k) (inputs k) := by
  constructor
  · rintro ⟨signals, fuel, stopped⟩ k
    exact ⟨signals k, honest.conserves_of_loop asked stopped k⟩
  · intro good
    exact ⟨fun k => (good k).1, honest.loop_stops asked good⟩

end Loop

end Drain

end PatBase.Lib
