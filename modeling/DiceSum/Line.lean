/-!
# Lines of bytes

Input comes as bytes. A line ends at a newline byte, and a carriage return directly before that
newline belongs to the line ending. What follows the last newline is a line only if it is not empty,
and nothing is dropped from its end.

## Main definitions

* `DiceSum.Line.cut` — the lines of an input.
* `DiceSum.Line.dropReturn` — a line without a carriage return at its end.
* `DiceSum.Line.text?` — the text of a line, if it is valid UTF-8.
-/

namespace DiceSum.Line

/-- The newline byte. -/
def newline : UInt8 := 10

/-- The carriage-return byte. -/
def carriageReturn : UInt8 := 13

/-- A line without one carriage return at its end. -/
def dropReturn (line : List UInt8) : List UInt8 :=
  if line.getLast? = some carriageReturn then line.dropLast else line

/-- What stands before the first newline. -/
def beforeNewline (bytes : List UInt8) : List UInt8 := bytes.takeWhile (· != newline)

/-- What stands after the first newline. -/
def afterNewline (bytes : List UInt8) : List UInt8 := (bytes.dropWhile (· != newline)).tail

theorem length_afterNewline_lt (b : UInt8) (bytes : List UInt8) :
    (afterNewline (b :: bytes)).length < (b :: bytes).length := by
  have hle : ((b :: bytes).dropWhile (· != newline)).length ≤ (b :: bytes).length :=
    (List.dropWhile_suffix _).length_le
  rw [List.length_cons] at hle
  rw [afterNewline, List.length_tail, List.length_cons]
  omega

/-- The lines of an input. -/
def cut : List UInt8 → List (List UInt8)
  | [] => []
  | b :: bytes =>
    if newline ∈ b :: bytes then
      dropReturn (beforeNewline (b :: bytes)) :: cut (afterNewline (b :: bytes))
    else [b :: bytes]
  termination_by bytes => bytes.length
  decreasing_by exact length_afterNewline_lt b bytes

/-- The text of a line, if its bytes are valid UTF-8. -/
def text? (line : List UInt8) : Option String := String.fromUTF8? line.toByteArray

end DiceSum.Line
