import DiceSum.Evaluation
import Mathlib

/-!
# Throws along the stream of samples

Seen from a state a source is an endless row of samples, and a row of dice takes the first samples
of this row: die number `k` takes sample number `k`, and the state that is left is the one after as
many samples as there are dice. How many samples were taken is not visible in a state, which may
well be the same after some samples as it was before, but a source can be made to count them.

## Main definitions

* `DiceSum.Metered` — a source that counts the samples that are taken from it.
* `DiceSum.Cycle.forDice` — a list with a sample of its own for each of some dice.

## Main results

* `DiceSum.getElem?_throwAll`, `DiceSum.state_throwAll` — the throws and the state that is left.
* `DiceSum.Source.after_metered`, `DiceSum.Source.sample_metered` — a source gives the same samples
  when they are counted.
-/

namespace DiceSum

variable {σ : Type} [Source σ]

theorem Source.sample_succ (s : σ) (n : Nat) : sample s (n + 1) = sample (next s).2 n := rfl

/-! ### Rows of dice -/

/-- Die number `k` takes sample number `k`. -/
theorem getElem?_throwAll (dice : List Die) (s : σ) (k : Nat) :
    (throwAll dice s).1[k]? = dice[k]?.map fun d => ⟨d, Source.sample s k⟩ := by
  induction dice generalizing s k with
  | nil => rfl
  | cons d dice ih =>
    rw [throwAll_cons]
    cases k with
    | zero => rfl
    | succ k => rw [List.getElem?_cons_succ, List.getElem?_cons_succ, ih, Source.sample_succ]

theorem state_throwAll (dice : List Die) (s : σ) :
    (throwAll dice s).2 = Source.after s dice.length := by
  induction dice generalizing s with
  | nil => rfl
  | cons d dice ih => rw [throwAll_cons, ih, List.length_cons, Source.after_succ]

/-! ### Counted samples -/

/-- A source, with the number of samples that have been taken from it. -/
structure Metered (σ : Type) where
  source : σ
  taken : Nat

instance : Source (Metered σ) where
  next m := ((Source.next m.source).1, ⟨(Source.next m.source).2, m.taken + 1⟩)

theorem Source.next_metered (m : Metered σ) :
    next m = ((next m.source).1, ⟨(next m.source).2, m.taken + 1⟩) := rfl

theorem Source.after_metered (m : Metered σ) (n : Nat) :
    after m n = ⟨after m.source n, m.taken + n⟩ := by
  induction n generalizing m with
  | zero => rfl
  | succ n ih => rw [after_succ, ih, next_metered, after_succ, Nat.add_assoc, Nat.add_comm 1 n]

theorem Source.sample_metered (m : Metered σ) (n : Nat) : sample m n = sample m.source n := by
  rw [sample, after_metered]
  rfl

/-- Counting the samples does not change the throws. -/
theorem throwAll_metered (dice : List Die) (m : Metered σ) :
    (throwAll dice m).1 = (throwAll dice m.source).1 := by
  refine List.ext_getElem? fun k => ?_
  rw [getElem?_throwAll, getElem?_throwAll, Source.sample_metered]

/-! ### Lists of samples -/

namespace Cycle

theorem next_eq (c : Cycle) :
    Source.next c = (c.get c.position, { c with position := c.position + 1 }) := rfl

theorem after_eq (c : Cycle) (n : Nat) :
    Source.after c n = { c with position := c.position + n } := by
  induction n generalizing c with
  | zero => rfl
  | succ n ih => rw [Source.after_succ, ih, next_eq, Nat.add_assoc, Nat.add_comm 1 n]

theorem sample_eq (c : Cycle) (n : Nat) : Source.sample c n = c.get (c.position + n) := by
  rw [Source.sample, after_eq]
  rfl

/-- The list that holds the sample `f d` for each die `d` of a row. -/
def forDice (f : Die → Sample) (dice : List Die) (h : dice ≠ []) : Cycle where
  samples := (dice.map f).toArray
  position := 0
  size_pos := by simpa using List.length_pos_iff.mpr h

theorem throwAll_forDice (f : Die → Sample) {dice : List Die} (h : dice ≠ []) :
    (throwAll dice (forDice f dice h)).1 = dice.map fun d => ⟨d, f d⟩ := by
  refine List.ext_getElem? fun k => ?_
  rw [getElem?_throwAll, List.getElem?_map, sample_eq]
  rcases Nat.lt_or_ge k dice.length with hk | hk
  · have hmod : k % dice.length = k := Nat.mod_eq_of_lt hk
    simp [List.getElem?_eq_getElem hk, get, forDice, hmod]
  · rw [List.getElem?_eq_none hk]
    rfl

end Cycle

end DiceSum
