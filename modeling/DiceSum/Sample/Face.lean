import DiceSum.Sample.Product
import DiceSum.Word

/-!
# The face that a sample selects

A sample `x` between `0` and `1` cuts the unit interval into as many equal parts as the die has
sides: the face is one more than the integer part of `x` times the number of sides. The sample may
be any number of its format, so the integer part is brought into the 64-bit range, with zero where
there is no number, and the face is brought into the range of the die. One is added without a bound
here: a product of `2 ^ 63` or more, which has the greatest 64-bit integer as its integer part,
shows the last face. Only samples above one have such products.

## Main definitions

* `DiceSum.Sample.Value.floor` — the integer part as a 64-bit integer.
* `DiceSum.Sample.face` — the face of a die.

## Main results

* `DiceSum.Sample.one_le_face`, `DiceSum.Sample.face_le` — it is a face of the die.
-/

namespace DiceSum.Sample

/-- The number of units of `2 ^ (-1074)` in one. -/
def whole : Nat := 1 <<< 1074

/-- The greatest 64-bit integer that is not above the value, the least one if all are above; zero
for what is no number. -/
def Value.floor : Value → Int
  | nan => 0
  | infinite .plus => Word.greatest
  | infinite .minus => Word.least
  | finite units => Word.saturate (units / whole)

/-- The face that a sample selects on a die. -/
def face (x : Sample) (sides : Quantity) : Int :=
  max 1 (min ((x.value.times sides).floor + 1) sides.toNat)

theorem one_le_face (x : Sample) (sides : Quantity) : 1 ≤ x.face sides := by
  rw [face]
  omega

theorem face_le (x : Sample) (sides : Quantity) : x.face sides ≤ sides.toNat := by
  have := sides.pos
  rw [face]
  omega

end DiceSum.Sample
