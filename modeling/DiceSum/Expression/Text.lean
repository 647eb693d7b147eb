import DiceSum.Expression
import DiceSum.Text.Numeral

/-!
# The written form of a dice sum

A group is written with its sign and its number of dice, as in `+1d6`. An expression is the row of
its groups, a leading plus left out, followed by the modifier with its sign unless that is zero, as
in `2d6+1d8-1d4-7`.

## Main definitions

* `DiceSum.Group.chars`, `DiceSum.Expression.chars` — the written forms as characters.
* `DiceSum.Group.text`, `DiceSum.Expression.text` — the same as strings.
-/

namespace DiceSum

/-- The dice of a group without their sign. -/
def Group.unsignedChars (g : Group) : List Char :=
  Text.numeral g.count.toNat ++ 'd' :: Text.numeral g.die.sides.toNat

/-- A group with its sign. -/
def Group.chars (g : Group) : List Char := g.die.sign.char :: g.unsignedChars

/-- A group with its sign. -/
def Group.text (g : Group) : String := String.ofList g.chars

namespace Expression

/-- The row of the groups, a leading plus left out. -/
def groupChars : List Group → List Char
  | [] => []
  | g :: gs =>
    match g.die.sign with
    | .plus => g.unsignedChars ++ gs.flatMap Group.chars
    | .minus => g.chars ++ gs.flatMap Group.chars

/-- A modifier with its sign; nothing if it is zero. -/
def modifierChars (modifier : Int) : List Char :=
  if modifier = 0 then []
  else if modifier < 0 then Sign.minus.char :: Text.numeral modifier.natAbs
  else Sign.plus.char :: Text.numeral modifier.natAbs

/-- The written form of an expression. -/
def chars (e : Expression) : List Char := groupChars e.groups ++ modifierChars e.modifier

/-- The written form of an expression. -/
def text (e : Expression) : String := String.ofList e.chars

@[simp] theorem toList_text (e : Expression) : e.text.toList = e.chars := String.toList_ofList

end Expression

end DiceSum
