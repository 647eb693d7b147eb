/-!
# Decimal numerals

Numbers are written in decimal, without leading zeros; numerals are read with any number of them.

## Main definitions

* `DiceSum.Text.numeral`, `DiceSum.Text.value` — the numeral of a number and the value of a numeral.
* `DiceSum.Text.integer` — an integer, with a minus sign if it is negative.

## Main results

* `DiceSum.Text.value_numeral` — reading undoes writing.
* `DiceSum.Text.isDigit_of_mem_numeral`, `DiceSum.Text.numeral_ne_nil` — a numeral is a non-empty
  row of digits.
-/

namespace DiceSum.Text

/-- The decimal numeral of a natural number. -/
def numeral (n : Nat) : List Char := Nat.toDigits 10 n

/-- The value of a row of decimal digits; `0` if there are none. -/
def value (digits : List Char) : Nat := Nat.ofDigitChars 10 digits 0

/-- An integer in decimal, with a minus sign if it is negative. -/
def integer (x : Int) : List Char :=
  if x < 0 then '-' :: numeral x.natAbs else numeral x.natAbs

@[simp] theorem value_numeral (n : Nat) : value (numeral n) = n :=
  Nat.ofDigitChars_toDigits (by decide) (by decide)

theorem isDigit_of_mem_numeral {n : Nat} {c : Char} (h : c ∈ numeral n) : c.isDigit = true :=
  Nat.isDigit_of_mem_toDigits (by decide) (by decide) h

theorem numeral_ne_nil (n : Nat) : numeral n ≠ [] :=
  Nat.toDigits_ne_nil

end DiceSum.Text
