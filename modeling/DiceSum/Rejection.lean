import DiceSum.Sign
import DiceSum.Text.Quoted

/-!
# Rejected notations

A text that is no dice notation is rejected for its first fault. The rejection says what is wrong,
at which byte of the text without blanks, and shows the piece of text at fault. Whoever asks for a
roll is told only that the notation is invalid; the diagnostic goes to the log.

## Main definitions

* `DiceSum.Rejection.Cause` — the faults.
* `DiceSum.Rejection` — a fault, its position and the text at fault.
* `DiceSum.Rejection.diagnostic`, `DiceSum.Rejection.message` — the two texts.
-/

namespace DiceSum

/-- The faults of a notation. -/
inductive Rejection.Cause where
  /-- A stray character, or a literal out of range. -/
  | unreadable
  /-- A sign directly after a sign. -/
  | repeatedSign (s : Sign)
  /-- The text ends after a sign. -/
  | danglingSign
  /-- The sum of the flat terms so far does not fit in 64 bits. -/
  | modifierOverflow
  /-- There is no dice term. -/
  | noDice
  /-- Some total that the dice can give, or may pass on the way, does not fit in 64 bits. -/
  | totalOverflow
  deriving DecidableEq, Repr

/-- The first fault of a notation. -/
structure Rejection where
  cause : Rejection.Cause
  /-- The byte, in the text without blanks, at which the text at fault starts. -/
  position : Nat
  /-- The text at fault; empty when the fault is found at the end. -/
  slice : String
  deriving DecidableEq, Repr

namespace Rejection

/-- The fault in words. -/
def Cause.text : Cause → String
  | unreadable => "not a dice term, integer or sign"
  | repeatedSign s =>
    "unexpected token: found '" ++ s.char.toString ++ "', expected <dice> or <integer>"
  | danglingSign => "expected <dice> or <integer> after sign"
  | modifierOverflow => "modifier out of range"
  | noDice => "at least one dice term is required"
  | totalOverflow => "possible totals do not fit in a 64-bit integer"

/-- The full report on a rejected notation. -/
def diagnostic (r : Rejection) : String :=
  "error at position " ++ toString r.position ++ " (" ++ String.ofList (Text.quote r.slice.toList)
    ++ "): " ++ r.cause.text

/-- What is said about any rejected notation to the one who wanted a roll. -/
def message (_ : Rejection) : String := "invalid dice notation"

end Rejection

end DiceSum
