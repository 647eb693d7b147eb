import DiceSum.Evaluation

/-!
# Rolling one notation after another

A roller owns a source and rolls against it any number of times. It counts the samples that it has
drawn.

## Main definitions

* `DiceSum.Roller` — a source and the number of samples drawn from it.
* `DiceSum.Roller.rollExpression`, `DiceSum.Roller.roll` — the roll of an expression and of a
  notation.
-/

namespace DiceSum

/-- A source and the number of samples drawn from it. -/
structure Roller (σ : Type) where
  source : σ
  draws : Nat

namespace Roller

variable {σ : Type}

/-- The roller that has drawn nothing yet. -/
def start (source : σ) : Roller σ := ⟨source, 0⟩

variable [Source σ]

/-- Rolls an expression, one sample per die. -/
def rollExpression (e : Expression) : StateM (Roller σ) Roll := fun r =>
  let (logged, source) := e.roll r.source
  (logged.value, ⟨source, r.draws + logged.value.faces.length⟩)

/-- Rolls a notation; if it is rejected, the roller stays as it is. -/
def roll (s : String) : StateM (Roller σ) (Except Rejection Roll) :=
  match Expression.parse s with
  | .ok e => .ok <$> rollExpression e
  | .error r => pure (.error r)

end Roller

end DiceSum
