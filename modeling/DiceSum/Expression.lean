import DiceSum.Dice
import DiceSum.Word

/-!
# Dice sums

An expression is a non-empty list of groups of dice and a flat modifier. Groups keep the order in
which they are written; all flat terms are summed up in the modifier, which fits in 64 bits.

## Main definitions

* `DiceSum.Expression` — a signed sum of dice and a modifier.
* `DiceSum.Expression.dice` — the dice in the order in which they are thrown.
* `DiceSum.Expression.diceCount` — their number, read off the groups.

## Main results

* `DiceSum.Expression.length_dice` — the two ways to count the dice agree.
-/

namespace DiceSum

/-- A signed sum of dice and a flat modifier. -/
structure Expression where
  groups : List Group
  modifier : Int
  groups_ne_nil : groups ≠ []
  modifier_fits : Word.Fits modifier
  deriving DecidableEq, Repr

namespace Expression

/-- The expression with the given parts, if there is a group and the modifier fits. -/
def ofParts? (groups : List Group) (modifier : Int) : Option Expression :=
  if h : groups ≠ [] ∧ Word.Fits modifier then some ⟨groups, modifier, h.1, h.2⟩ else none

theorem ofParts?_eq_some {groups : List Group} {modifier : Int} {e : Expression} :
    ofParts? groups modifier = some e ↔ e.groups = groups ∧ e.modifier = modifier := by
  constructor
  · intro h
    rw [ofParts?] at h
    split at h
    · cases h; exact ⟨rfl, rfl⟩
    · cases h
  · rintro ⟨rfl, rfl⟩
    simp [ofParts?, e.groups_ne_nil, e.modifier_fits]

/-- The dice of an expression, in the order in which they are thrown. -/
def dice (e : Expression) : List Die := e.groups.flatMap Group.dice

/-- The number of dice of an expression. -/
def diceCount (e : Expression) : Nat := e.groups.foldr (fun g count => g.count.toNat + count) 0

theorem length_dice (e : Expression) : e.dice.length = e.diceCount := by
  rw [dice, diceCount]
  induction e.groups with
  | nil => rfl
  | cons g gs ih =>
    rw [List.flatMap_cons, List.length_append, Group.length_dice, ih, List.foldr_cons]

end Expression

end DiceSum
