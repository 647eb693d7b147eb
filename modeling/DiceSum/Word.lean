/-!
# The range of 64-bit words

Totals, modifiers and bounds are integers that have to fit in a signed 64-bit word. The library
computes with integers and says at each place what becomes of a result outside the range: it is
refused (`DiceSum.Word.checked`) or moved to the nearer end (`DiceSum.Word.saturate`).

## Main definitions

* `DiceSum.Word.least`, `DiceSum.Word.greatest` — the ends of the range.
* `DiceSum.Word.Fits` — the integers of the range.
* `DiceSum.Word.checked`, `DiceSum.Word.saturate` — the two ways to treat the other integers.
-/

namespace DiceSum.Word

/-- The least signed 64-bit integer. -/
def least : Int := -9223372036854775808

/-- The greatest signed 64-bit integer. -/
def greatest : Int := 9223372036854775807

/-- An integer fits when it lies in the signed 64-bit range. -/
def Fits (x : Int) : Prop := least ≤ x ∧ x ≤ greatest

instance (x : Int) : Decidable (Fits x) := inferInstanceAs (Decidable (_ ∧ _))

theorem fits_iff {x : Int} :
    Fits x ↔ -9223372036854775808 ≤ x ∧ x ≤ 9223372036854775807 := Iff.rfl

theorem fits_zero : Fits 0 := by decide

/-- The integer itself if it fits. -/
def checked (x : Int) : Option Int := if Fits x then some x else none

theorem checked_of_fits {x : Int} (h : Fits x) : checked x = some x := if_pos h

@[simp] theorem checked_eq_none {x : Int} : checked x = none ↔ ¬ Fits x := by
  by_cases h : Fits x <;> simp [checked, h]

@[simp] theorem checked_eq_some {x y : Int} : checked x = some y ↔ Fits x ∧ x = y := by
  by_cases h : Fits x <;> simp [checked, h]

/-- The integer of the range that is nearest to `x`. -/
def saturate (x : Int) : Int := max least (min x greatest)

theorem saturate_of_fits {x : Int} (h : Fits x) : saturate x = x := by
  rw [fits_iff] at h
  simp only [saturate, least, greatest]
  omega

theorem fits_saturate (x : Int) : Fits (saturate x) := by
  rw [fits_iff]
  simp only [saturate, least, greatest]
  omega

theorem saturate_le_saturate {x y : Int} (h : x ≤ y) : saturate x ≤ saturate y := by
  simp only [saturate, least, greatest]
  omega

end DiceSum.Word
