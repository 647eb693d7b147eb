/-!
# Written seeds

A seed is a decimal number below `2 ^ 64`, with any number of leading zeros and perhaps a plus sign
in front.

## Main definitions

* `DiceSum.Seed.Fault` — why a text is no seed.
* `DiceSum.Seed.parse` — reading of a seed.
-/

namespace DiceSum.Seed

/-- Why a text is no seed. -/
inductive Fault where
  | empty
  | invalidDigit
  /-- The number is too great. -/
  | overflow
  deriving DecidableEq, Repr

/-- The name of a fault. -/
def Fault.text : Fault → String
  | empty => "Empty"
  | invalidDigit => "InvalidDigit"
  | overflow => "PosOverflow"

/-- Reads digits after those of value `n`. The first fault from the left counts. -/
def readDigits (n : Nat) : List Char → Except Fault Nat
  | [] => .ok n
  | c :: cs =>
    if c.isDigit then
      let n := 10 * n + (c.toNat - '0'.toNat)
      if n < 18446744073709551616 then readDigits n cs else .error .overflow
    else .error .invalidDigit

/-- Reads a seed. A sign alone is an invalid digit. -/
def parse (s : String) : Except Fault UInt64 :=
  match s.toList with
  | [] => .error .empty
  | ['+'] => .error .invalidDigit
  | '+' :: cs => (readDigits 0 cs).map UInt64.ofNat
  | cs => (readDigits 0 cs).map UInt64.ofNat

end DiceSum.Seed
