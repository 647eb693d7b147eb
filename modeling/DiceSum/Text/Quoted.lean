import DiceSum.Text.Extending
import DiceSum.Text.Ignorable
import DiceSum.Text.Unprintable

/-!
# Quoted text

A piece of input is shown between double quotes, and no character of it is shown that would not be
seen: the quote, the backslash and the common controls have a short escape; the other unprintable
characters, those that are shown as nothing and those that would merge with the character before
them are given by their code point in hexadecimal. All other characters stand for themselves.

## Main definitions

* `DiceSum.Text.isHidden` — whether a character is given by its code point.
* `DiceSum.Text.escape` — the form of one character.
* `DiceSum.Text.quote` — the form of a text.
-/

namespace DiceSum.Text

/-- A character given by its code point, in lower-case hexadecimal without leading zeros. -/
def codePoint (c : Char) : List Char :=
  '\\' :: 'u' :: '\x7b' :: (Nat.toDigits 16 c.toNat ++ ['\x7d'])

/-- Whether a character cannot be seen on its own. -/
def isHidden (c : Char) : Bool :=
  extending.contains c || ignorable.contains c || unprintable.contains c

/-- The form of a character inside a quoted text. -/
def escape (c : Char) : List Char :=
  match c with
  | '\x00' => ['\\', '0']
  | '\t' => ['\\', 't']
  | '\n' => ['\\', 'n']
  | '\r' => ['\\', 'r']
  | '"' => ['\\', '"']
  | '\\' => ['\\', '\\']
  | c => if isHidden c then codePoint c else [c]

/-- A text between double quotes, with its characters in the form in which they can be seen. -/
def quote (s : List Char) : List Char := '"' :: (s.flatMap escape ++ ['"'])

end DiceSum.Text
