import DiceSum.Text.Numeral

/-!
# The outcome of a roll

A roll holds one signed face per die, in the order in which the dice were thrown, and the modifier.
A die that is subtracted has its face negated, so that the total is the plain sum of the faces and
the modifier. A roll is written as in `[3, 5, -2] + 4 = 10`; a zero modifier is left out.

## Main definitions

* `DiceSum.Roll`, `DiceSum.Roll.total` — a roll and its total.
* `DiceSum.Roll.chars`, `DiceSum.Roll.text` — the written form.
-/

namespace DiceSum

/-- The outcome of a roll. -/
structure Roll where
  /-- The signed faces, one per die. -/
  faces : List Int
  modifier : Int
  deriving DecidableEq, Repr

namespace Roll

/-- The total of a roll: the faces from the left, then the modifier. -/
def total (r : Roll) : Int := r.faces.foldl (· + ·) 0 + r.modifier

/-- Integers in a row, with a comma and a space between two of them. -/
def rowChars : List Int → List Char
  | [] => []
  | x :: xs => Text.integer x ++ xs.flatMap fun y => ',' :: ' ' :: Text.integer y

/-- A modifier as a term that is added or subtracted; nothing if it is zero. -/
def modifierChars (modifier : Int) : List Char :=
  if modifier = 0 then []
  else if modifier < 0 then ' ' :: '-' :: ' ' :: Text.numeral modifier.natAbs
  else ' ' :: '+' :: ' ' :: Text.numeral modifier.natAbs

/-- The written form of a roll. -/
def chars (r : Roll) : List Char :=
  '[' :: (rowChars r.faces ++ ']' ::
    (modifierChars r.modifier ++ ' ' :: '=' :: ' ' :: Text.integer r.total))

/-- The written form of a roll. -/
def text (r : Roll) : String := String.ofList r.chars

@[simp] theorem toList_text (r : Roll) : r.text.toList = r.chars := String.toList_ofList

end Roll

end DiceSum
