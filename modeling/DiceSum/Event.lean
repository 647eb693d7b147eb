import DiceSum.Dice
import DiceSum.Sample

/-!
# The log

Rolling leaves a trace: an event for each die, an event for each finished roll, and an event for
each notation that is rejected.

## Main definitions

* `DiceSum.Event` — the events, with `DiceSum.Event.level` and `DiceSum.Event.message`.
* `DiceSum.Logged` — a result together with the events that led to it.
-/

namespace DiceSum

/-- An entry of the log. -/
inductive Event where
  /-- A die was thrown: its sample, its sides and the face it shows, without a sign. -/
  | thrown (sample : Sample) (sides : Quantity) (face : Int)
  /-- An expression, given by its written form, was rolled with this total. -/
  | evaluated (expression : String) (total : Int)
  /-- A notation was rejected. -/
  | rejected (diagnostic : String)
  deriving DecidableEq, Repr

namespace Event

/-- How closely one has to look to see an event. -/
inductive Level where
  | trace
  | debug
  deriving DecidableEq, Repr

/-- The name of a level. -/
def Level.text : Level → String
  | trace => "trace"
  | debug => "debug"

/-- The level of an event: single dice are of interest only in a close look. -/
def level : Event → Level
  | thrown .. => .trace
  | evaluated .. => .debug
  | rejected .. => .debug

/-- What is said to have happened. -/
def message : Event → String
  | thrown .. => "rolled die"
  | evaluated .. => "evaluated dice expression"
  | rejected .. => "rejected dice notation"

end Event

/-- A result together with the events that led to it, in order. -/
structure Logged (α : Type) where
  value : α
  events : List Event

end DiceSum
