import DiceSum.Word
import Mathlib

/-!
# Running sums

A row of integers is added to a start, one after another. Whether this can be done in 64-bit words
depends on every sum on the way and not on the last one only.

## Main definitions

* `DiceSum.Word.RunningFits` — every sum on the way fits.

## Main results

* `DiceSum.Word.runningFits_append` — a row in two parts.
* `DiceSum.Word.runningFits_of_same_sign` — a row without opposite signs.
* `DiceSum.Word.RunningFits.of_between` — a row that lies, entry by entry, between two rows whose
  running sums fit.
* `DiceSum.Word.runningFits_map_neg_iff` — the negated row.
* `DiceSum.Word.foldlM_checked_eq_some_iff` — the checked addition of a row.
-/

namespace DiceSum.Word

/-- All sums of a start and the first entries of a row fit. -/
def RunningFits (start : Int) (xs : List Int) : Prop := ∀ n, Fits (start + (xs.take n).sum)

variable {start x : Int} {xs ys : List Int}

theorem RunningFits.fits_start (h : RunningFits start xs) : Fits start := by
  simpa using h 0

theorem RunningFits.fits_sum (h : RunningFits start xs) : Fits (start + xs.sum) := by
  simpa using h xs.length

@[simp] theorem runningFits_nil : RunningFits start [] ↔ Fits start := by
  simp [RunningFits]

@[simp] theorem runningFits_cons :
    RunningFits start (x :: xs) ↔ Fits start ∧ RunningFits (start + x) xs := by
  constructor
  · intro h
    refine ⟨h.fits_start, fun n => ?_⟩
    simpa [Int.add_assoc] using h (n + 1)
  · rintro ⟨hstart, hrest⟩ (_ | n)
    · simpa using hstart
    · simpa [Int.add_assoc] using hrest n

theorem runningFits_append :
    RunningFits start (xs ++ ys) ↔ RunningFits start xs ∧ RunningFits (start + xs.sum) ys := by
  induction xs generalizing start with
  | nil =>
    simp only [List.nil_append, runningFits_nil, List.sum_nil, Int.add_zero, iff_and_self]
    exact RunningFits.fits_start
  | cons x xs ih => simp [ih, and_assoc, Int.add_assoc]

theorem runningFits_toList {o : Option Int} :
    RunningFits start o.toList ↔ Fits start ∧ ∀ x ∈ o, Fits (start + x) := by
  cases o with
  | none => simp
  | some x =>
    rw [Option.toList_some, runningFits_cons, runningFits_nil]
    refine and_congr_right fun _ => ⟨fun h y hy => ?_, fun h => h x rfl⟩
    rwa [← Option.mem_some.mp hy]

theorem sum_nonpos (h : ∀ x ∈ xs, x ≤ 0) : xs.sum ≤ 0 := by
  simpa using List.sum_le_card_nsmul xs 0 h

/-- The sums on the way lie between the first and the last one if no two entries have opposite
signs. -/
theorem runningFits_of_same_sign (hsign : (∀ x ∈ xs, 0 ≤ x) ∨ ∀ x ∈ xs, x ≤ 0)
    (hstart : Fits start) (hlast : Fits (start + xs.sum)) : RunningFits start xs := by
  intro n
  have hsum : (xs.take n).sum + (xs.drop n).sum = xs.sum := List.sum_take_add_sum_drop xs n
  rw [fits_iff] at hstart hlast ⊢
  rcases hsign with hpos | hneg
  · have htake : 0 ≤ (xs.take n).sum := List.sum_nonneg fun x hx => hpos x (List.mem_of_mem_take hx)
    have hdrop : 0 ≤ (xs.drop n).sum := List.sum_nonneg fun x hx => hpos x (List.mem_of_mem_drop hx)
    omega
  · have htake : (xs.take n).sum ≤ 0 := sum_nonpos fun x hx => hneg x (List.mem_of_mem_take hx)
    have hdrop : (xs.drop n).sum ≤ 0 := sum_nonpos fun x hx => hneg x (List.mem_of_mem_drop hx)
    omega

/-- In particular they do if the same integer is added again and again. -/
theorem runningFits_replicate {n : Nat} (hstart : Fits start) (hlast : Fits (start + n * x)) :
    RunningFits start (List.replicate n x) := by
  refine runningFits_of_same_sign ?_ hstart (by rwa [List.sum_replicate_int])
  rcases Int.le_total 0 x with hx | hx
  · exact .inl fun y hy => (List.eq_of_mem_replicate hy).symm ▸ hx
  · exact .inr fun y hy => (List.eq_of_mem_replicate hy).symm ▸ hx

/-- Running sums fit if they lie between running sums that do. -/
theorem RunningFits.of_between {lows highs : List Int} (hlows : RunningFits start lows)
    (hhighs : RunningFits start highs) (hle : List.Forall₂ (· ≤ ·) lows xs)
    (hge : List.Forall₂ (· ≤ ·) xs highs) : RunningFits start xs := by
  intro n
  have hlow : (lows.take n).sum ≤ (xs.take n).sum := (List.forall₂_take n hle).sum_le_sum
  have hhigh : (xs.take n).sum ≤ (highs.take n).sum := (List.forall₂_take n hge).sum_le_sum
  have hlown := hlows n
  have hhighn := hhighs n
  rw [fits_iff] at hlown hhighn ⊢
  omega

/-- The least word is the only one without a negative. -/
theorem fits_neg_iff (h : Fits x) : Fits (-x) ↔ x ≠ least := by
  rw [fits_iff] at h ⊢
  rw [least]
  omega

theorem ne_least_of_le {y : Int} (hx : Fits x) (hle : x ≤ y) (hne : x ≠ least) : y ≠ least :=
  fun hy => hne (Int.le_antisymm (hle.trans_eq hy) hx.1)

theorem runningFits_map_neg_iff (h : RunningFits 0 xs) :
    RunningFits 0 (xs.map fun x => -x) ↔ ∀ n, (xs.take n).sum ≠ least := by
  refine forall_congr' fun n => ?_
  rw [← List.map_take, ← List.sum_neg, Int.zero_add]
  exact fits_neg_iff (by simpa using h n)

/-- A row can be added with a check after each step exactly when all sums on the way fit. -/
theorem foldlM_checked_eq_some_iff {total : Int} (hstart : Fits start) :
    xs.foldlM (fun sum y => checked (sum + y)) start = some total ↔
      RunningFits start xs ∧ total = start + xs.sum := by
  induction xs generalizing start with
  | nil => simp [hstart, eq_comm]
  | cons x xs ih =>
    rw [List.foldlM_cons, Option.bind_eq_bind, Option.bind_eq_some_iff]
    constructor
    · rintro ⟨sum, hsum, hrest⟩
      obtain ⟨hfits, rfl⟩ := checked_eq_some.mp hsum
      obtain ⟨hrun, rfl⟩ := (ih hfits).mp hrest
      exact ⟨runningFits_cons.mpr ⟨hstart, hrun⟩, by rw [List.sum_cons, Int.add_assoc]⟩
    · rintro ⟨hrun, rfl⟩
      have hrun' := (runningFits_cons.mp hrun).2
      refine ⟨start + x, checked_of_fits hrun'.fits_start, (ih hrun'.fits_start).mpr ⟨hrun', ?_⟩⟩
      rw [List.sum_cons, Int.add_assoc]

end DiceSum.Word
