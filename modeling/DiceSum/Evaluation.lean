import DiceSum.Event
import DiceSum.Expression.Text
import DiceSum.Reading
import DiceSum.Roll
import DiceSum.Sample.Face
import DiceSum.Source

/-!
# Rolling dice

The dice of an expression are thrown in the order in which they are written. Each takes one sample
from the source, which selects its face, and puts its sign on the face. Nothing else is taken from
the source, and a notation that is rejected takes nothing.

## Main definitions

* `DiceSum.Throw` — a die and the sample that it took.
* `DiceSum.throwAll` — the throw of a row of dice.
* `DiceSum.Expression.roll` — the roll of an expression.
* `DiceSum.readNotation`, `DiceSum.rollNotation` — reading and rolling of a notation, with the log.

## Main results

* `DiceSum.throwAll_cons` — the throws of a row, die by die.
* `DiceSum.throwAll_append` — a row in two parts.
-/

namespace DiceSum

/-- A die that has been thrown, with the sample that it took. -/
structure Throw where
  die : Die
  sample : Sample
  deriving DecidableEq, Repr

namespace Throw

/-- The face that the die shows, without its sign. -/
def face (t : Throw) : Int := t.sample.face t.die.sides

/-- The face that the die shows, with its sign. -/
def signedFace (t : Throw) : Int := t.die.sign.apply t.face

/-- The entry of the log. -/
def event (t : Throw) : Event := .thrown t.sample t.die.sides t.face

end Throw

variable {σ : Type} [Source σ]

/-! ### Rows of dice -/

/-- Throws a row of dice, one after another. -/
def throwAll (dice : List Die) : StateM σ (List Throw) :=
  dice.mapM fun d => Throw.mk d <$> Source.draw

theorem throwAll_cons (d : Die) (dice : List Die) (s : σ) :
    throwAll (d :: dice) s =
      (⟨d, (Source.next s).1⟩ :: (throwAll dice (Source.next s).2).1,
        (throwAll dice (Source.next s).2).2) := by
  rw [throwAll, List.mapM_cons]
  rfl

theorem throwAll_append (dice dice' : List Die) (s : σ) :
    throwAll (dice ++ dice') s =
      ((throwAll dice s).1 ++ (throwAll dice' (throwAll dice s).2).1,
        (throwAll dice' (throwAll dice s).2).2) := by
  induction dice generalizing s with
  | nil => rfl
  | cons d dice ih => rw [List.cons_append, throwAll_cons, throwAll_cons, ih, List.cons_append]

theorem length_throwAll (dice : List Die) (s : σ) :
    (throwAll dice s).1.length = dice.length := by
  induction dice generalizing s with
  | nil => rfl
  | cons d dice ih => rw [throwAll_cons, List.length_cons, List.length_cons, ih]

/-! ### Expressions and notations -/

/-- The roll that some throws and a modifier make. -/
def Roll.ofThrows (throws : List Throw) (modifier : Int) : Roll :=
  ⟨throws.map Throw.signedFace, modifier⟩

/-- Rolls an expression: throws its dice and logs each of them, then the total. -/
def Expression.roll (e : Expression) : StateM σ (Logged Roll) := do
  let throws ← throwAll e.dice
  let r := Roll.ofThrows throws e.modifier
  return ⟨r, throws.map Throw.event ++ [.evaluated e.text r.total]⟩

/-- Reads a notation, and logs the reason if it is rejected. -/
def readNotation (s : String) : Logged (Except Rejection Expression) :=
  match Expression.parse s with
  | .ok e => ⟨.ok e, []⟩
  | .error r => ⟨.error r, [.rejected r.diagnostic]⟩

/-- Reads a notation and rolls it. Nothing is drawn if it is rejected. -/
def rollNotation (s : String) : StateM σ (Logged (Except Rejection Roll)) :=
  match readNotation s with
  | ⟨.ok e, events⟩ => do
    let l ← e.roll
    return ⟨.ok l.value, events ++ l.events⟩
  | ⟨.error r, events⟩ => return ⟨.error r, events⟩

end DiceSum
