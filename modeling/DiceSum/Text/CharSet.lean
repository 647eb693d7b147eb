/-!
# Sets of characters

A character class of a standard is given by the ranges of its code points.

## Main definitions

* `DiceSum.Text.CharSet` — a list of ranges, both ends included.
* `DiceSum.Text.CharSet.contains` — whether a character lies in one of them.
-/

namespace DiceSum.Text

/-- A set of characters, given by ranges of code points with both ends included. -/
structure CharSet where
  ranges : List (Nat × Nat)

/-- Whether a character lies in one of the ranges. -/
def CharSet.contains (s : CharSet) (c : Char) : Bool :=
  s.ranges.any fun r => decide (r.1 ≤ c.toNat) && decide (c.toNat ≤ r.2)

theorem CharSet.contains_eq_true {s : CharSet} {c : Char} :
    s.contains c = true ↔ ∃ r ∈ s.ranges, r.1 ≤ c.toNat ∧ c.toNat ≤ r.2 := by
  simp [contains]

end DiceSum.Text
