import DiceSum.Proofs.TotalRange

/-!
# When the saturating bounds are exact

The saturating bounds add the least or the greatest sum of each group to the modifier, and every sum
that leaves the range is moved to its nearer end. What is moved once does not come back: if the sums
of the groups alone fit, as they do for an accepted notation, a sum that was moved up at the lower
end can not reach the upper end any more, and the other way round. So the bound is the exact sum if
no sum on the way leaves the range, and in no other case.

## Main results

* `DiceSum.Word.foldl_saturate_eq_iff` — the saturating addition of a row.
* `DiceSum.TotalsFit.least_eq_iff`, `DiceSum.TotalsFit.greatest_eq_iff` — the saturating bounds of
  an expression.
-/

namespace DiceSum

/-! ### Saturating sums -/

namespace Word

variable {start low high exact : Int} {xs : List Int}

theorem le_saturate {x : Int} (h : x ≤ greatest) : x ≤ saturate x := by
  rw [saturate, min_eq_left h]
  exact le_max_right least x

theorem saturate_le {x : Int} (h : least ≤ x) : saturate x ≤ x :=
  max_le h (min_le_left x greatest)

/-- A saturated integer is at most any integer of the range that is not below it. -/
theorem saturate_le_of_le {x y : Int} (hy : Fits y) (h : x ≤ y) : saturate x ≤ y :=
  (saturate_le_saturate h).trans (saturate_of_fits hy).le

/-- A saturated integer is at least any integer of the range that is not above it. -/
theorem le_saturate_of_le {x y : Int} (hy : Fits y) (h : y ≤ x) : y ≤ saturate x :=
  (saturate_of_fits hy).ge.trans (saturate_le_saturate h)

theorem foldl_saturate_of_runningFits (h : RunningFits start xs) :
    xs.foldl (fun sum x => saturate (sum + x)) start = start + xs.sum := by
  induction xs generalizing start with
  | nil => simp
  | cons x xs ih =>
    have hrest := (runningFits_cons.mp h).2
    rw [List.foldl_cons, saturate_of_fits hrest.fits_start, ih hrest, List.sum_cons, Int.add_assoc]

/-- A saturating sum above the exact one stays above it, as long as it is not above a running sum
that fits: such a sum is never moved down. -/
theorem lt_foldl_saturate (h : RunningFits high xs) (hexact : exact < start)
    (hhigh : start ≤ high) :
    exact + xs.sum < xs.foldl (fun sum x => saturate (sum + x)) start := by
  -- every step keeps `exact < start` and `start ≤ high`
  induction xs generalizing start high exact with
  | nil => simpa using hexact
  | cons x xs ih =>
    have hrest := (runningFits_cons.mp h).2
    have hle : start + x ≤ high + x := Int.add_le_add_right hhigh x
    rw [List.foldl_cons, List.sum_cons, ← Int.add_assoc]
    refine ih hrest ?_ (saturate_le_of_le hrest.fits_start hle)
    calc exact + x < start + x := Int.add_lt_add_right hexact x
      _ ≤ saturate (start + x) := le_saturate (hle.trans hrest.fits_start.2)

/-- A saturating sum below the exact one stays below it, as long as it is not below a running sum
that fits. -/
theorem foldl_saturate_lt (h : RunningFits low xs) (hexact : start < exact) (hlow : low ≤ start) :
    xs.foldl (fun sum x => saturate (sum + x)) start < exact + xs.sum := by
  induction xs generalizing start low exact with
  | nil => simpa using hexact
  | cons x xs ih =>
    have hrest := (runningFits_cons.mp h).2
    have hle : low + x ≤ start + x := Int.add_le_add_right hlow x
    rw [List.foldl_cons, List.sum_cons, ← Int.add_assoc]
    refine ih hrest ?_ (le_saturate_of_le hrest.fits_start hle)
    calc saturate (start + x) ≤ start + x := saturate_le (hrest.fits_start.1.trans hle)
      _ < exact + x := Int.add_lt_add_right hexact x

/-- The saturating sum of a row is exact if and only if no sum on the way leaves the range, provided
that the row has sums that fit from some other start. -/
theorem foldl_saturate_eq_iff {other : Int} (hstart : Fits start) (h : RunningFits other xs) :
    xs.foldl (fun sum x => saturate (sum + x)) start = start + xs.sum ↔ RunningFits start xs := by
  refine ⟨fun heq => ?_, foldl_saturate_of_runningFits⟩
  induction xs generalizing start other with
  | nil => exact runningFits_nil.mpr hstart
  | cons x xs ih =>
    have hrest := (runningFits_cons.mp h).2
    have hother := hrest.fits_start
    rw [List.foldl_cons, List.sum_cons, ← Int.add_assoc] at heq
    by_cases hfits : Fits (start + x)
    · rw [saturate_of_fits hfits] at heq
      exact runningFits_cons.mpr ⟨hstart, ih hfits hrest heq⟩
    · -- the first sum that is moved: from here on the two sums differ in one direction
      rw [Fits, not_and_or, Int.not_le, Int.not_le] at hfits
      rcases hfits with hbelow | habove
      · have hmoved : start + x < saturate (start + x) := hbelow.trans_le (fits_saturate _).1
        have hle := saturate_le_of_le hother (hbelow.le.trans hother.1)
        exact absurd heq (lt_foldl_saturate hrest hmoved hle).ne'
      · have hmoved : saturate (start + x) < start + x := (fits_saturate _).2.trans_lt habove
        have hle := le_saturate_of_le hother (hother.2.trans habove.le)
        exact absurd heq (foldl_saturate_lt hrest hmoved hle).ne

/-- The same for the values of a function on a row, which may be given by another function. -/
theorem foldl_saturate_map_eq_iff {α : Type} {l : List α} {f g : α → Int} {other : Int}
    (hfg : ∀ a ∈ l, f a = g a) (hstart : Fits start) (h : RunningFits other (l.map g)) :
    l.foldl (fun sum a => saturate (sum + f a)) start = start + (l.map g).sum ↔
      RunningFits start (l.map g) := by
  have hfold : l.foldl (fun sum a => saturate (sum + f a)) start =
      (l.map g).foldl (fun sum x => saturate (sum + x)) start := by
    rw [List.foldl_map]
    exact List.foldl_ext _ _ _ fun sum a ha => by rw [hfg a ha]
  rw [hfold]
  exact foldl_saturate_eq_iff hstart h

end Word

/-! ### The bounds of an expression -/

open Word (RunningFits)

theorem Group.least_of_fits {g : Group} (h : Word.Fits g.span) : g.least = g.low := by
  rw [least, low, Word.saturate_of_fits h]

theorem Group.greatest_of_fits {g : Group} (h : Word.Fits g.span) : g.greatest = g.high := by
  rw [greatest, high, Word.saturate_of_fits h]

namespace TotalsFit

variable {e : Expression}

/-- The lower saturating bound is the least total exactly when the modifier and the least sums of
the first groups have sums that fit. -/
theorem least_eq_iff (h : TotalsFit e.groups e.modifier) :
    e.least = e.modifier + (e.groups.map Group.low).sum ↔
      RunningFits e.modifier (e.groups.map Group.low) :=
  Word.foldl_saturate_map_eq_iff (fun g hg => Group.least_of_fits (h.span g hg)) e.modifier_fits
    h.low

/-- The upper saturating bound is the greatest total exactly when the modifier and the greatest sums
of the first groups have sums that fit. -/
theorem greatest_eq_iff (h : TotalsFit e.groups e.modifier) :
    e.greatest = e.modifier + (e.groups.map Group.high).sum ↔
      RunningFits e.modifier (e.groups.map Group.high) :=
  Word.foldl_saturate_map_eq_iff (fun g hg => Group.greatest_of_fits (h.span g hg))
    e.modifier_fits h.high

end TotalsFit

end DiceSum
