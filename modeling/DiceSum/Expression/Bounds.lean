import DiceSum.Expression

/-!
# The least and the greatest total

There are two ways to bound the totals of a dice sum. The *checked* bounds start from `0`, take in
one group after another, then the modifier, and exist only if every number on the way fits in 64
bits: a notation without them is rejected. The *saturating* bounds start from the modifier, take in
one group after another, and stop at the ends of the 64-bit range, so that they exist for every
expression.

## Main definitions

* `DiceSum.Group.span` — the greatest sum of the faces of a group.
* `DiceSum.Group.low`, `DiceSum.Group.high` — the least and the greatest signed sum of a group.
* `DiceSum.Bounds`, `DiceSum.totalBounds` — the checked bounds.
* `DiceSum.Group.least`, `DiceSum.Group.greatest`, `DiceSum.Expression.least`,
  `DiceSum.Expression.greatest` — the saturating bounds.
-/

namespace DiceSum

/-! ### One group -/

namespace Group

/-- The greatest sum of the faces of a group, without its sign. -/
def span (g : Group) : Int := g.count.toNat * g.die.sides.toNat

/-- The least signed sum of a group: every die shows its least face, or its greatest if the group
is subtracted. -/
def low (g : Group) : Int :=
  match g.die.sign with
  | .plus => g.count.toNat
  | .minus => -g.span

/-- The greatest signed sum of a group. -/
def high (g : Group) : Int :=
  match g.die.sign with
  | .plus => g.span
  | .minus => -g.count.toNat

/-- The least signed sum of a group, its magnitude cut at the greatest 64-bit integer. -/
def least (g : Group) : Int :=
  match g.die.sign with
  | .plus => g.count.toNat
  | .minus => -Word.saturate g.span

/-- The greatest signed sum of a group, its magnitude cut at the greatest 64-bit integer. -/
def greatest (g : Group) : Int :=
  match g.die.sign with
  | .plus => Word.saturate g.span
  | .minus => -g.count.toNat

end Group

/-! ### Checked bounds -/

/-- The least and the greatest value of a sum. -/
structure Bounds where
  low : Int
  high : Int
  deriving DecidableEq, Repr

namespace Bounds

/-- The bounds moved by `low` and `high`, if both ends still fit. -/
def shift? (b : Bounds) (low high : Int) : Option Bounds := do
  let low ← Word.checked (b.low + low)
  let high ← Word.checked (b.high + high)
  return ⟨low, high⟩

/-- The bounds after one more group, if its span and both ends fit. -/
def addGroup? (b : Bounds) (g : Group) : Option Bounds := do
  let _ ← Word.checked g.span
  b.shift? g.low g.high

end Bounds

/-- The least and the greatest total of some groups and a modifier. There are none when some span,
some sum over the first groups or one of the final sums does not fit in 64 bits. -/
def totalBounds (groups : List Group) (modifier : Int) : Option Bounds := do
  let b ← groups.foldlM Bounds.addGroup? ⟨0, 0⟩
  b.shift? modifier modifier

/-! ### Saturating bounds -/

namespace Expression

/-- The least total of an expression, as far as 64 bits go. -/
def least (e : Expression) : Int :=
  e.groups.foldl (fun sum g => Word.saturate (sum + g.least)) e.modifier

/-- The greatest total of an expression, as far as 64 bits go. -/
def greatest (e : Expression) : Int :=
  e.groups.foldl (fun sum g => Word.saturate (sum + g.greatest)) e.modifier

end Expression

end DiceSum
