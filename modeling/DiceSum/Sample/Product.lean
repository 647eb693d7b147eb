import DiceSum.Dice
import DiceSum.Sample

/-!
# The product of a sample and a number of sides

A floating-point product is the exact product, rounded to the nearest number that has at most 53
significant bits and is a multiple of `2 ^ (-1074)`; a product half-way between two such numbers
goes to the one whose last bit is zero. From `2 ^ 1024` on the result is infinite.

## Main definitions

* `DiceSum.Sample.halveEven` — division by a power of two, rounded to the nearest integer.
* `DiceSum.Sample.nearest` — the nearest number of 53 significant bits.
* `DiceSum.Sample.Value.times` — the rounded product.
-/

namespace DiceSum.Sample

/-- The integer nearest to `n / 2 ^ s`, the even one if two are equally near. -/
def halveEven (n s : Nat) : Nat :=
  let quotient := n >>> s
  let remainder := n % (1 <<< s)
  if 2 * remainder < 1 <<< s then quotient
  else if 2 * remainder = 1 <<< s ∧ quotient % 2 = 0 then quotient
  else quotient + 1

/-- The number of at most 53 significant bits that is nearest to `n`, the one with the even last
bit if two are equally near. -/
def nearest (n : Nat) : Nat := halveEven n (n.log2 - 52) <<< (n.log2 - 52)

namespace Value

/-- The number of units of `2 ^ (-1074)` in `2 ^ 1024`, where the finite numbers end. -/
def limit : Nat := 1 <<< 2098

/-- The finite number nearest to `units * 2 ^ (-1074)`, or the infinity of its sign if the nearest
one is too great. -/
def round (units : Int) : Value :=
  let s : Sign := if units < 0 then .minus else .plus
  if nearest units.natAbs < limit then .finite (s.apply (nearest units.natAbs)) else .infinite s

/-- The rounded product of a value and a positive integer. -/
def times (v : Value) (n : Quantity) : Value :=
  match v with
  | nan => nan
  | infinite s => infinite s
  | finite units => round (units * n.toNat)

end Value

end DiceSum.Sample
