import DiceSum.Text.CharSet

/-!
# Blank characters

The characters with the property White_Space of the Unicode Character Database. They mean nothing
in a dice notation, wherever they stand.

## Main definitions

* `DiceSum.Text.blanks` — the set of these characters.
* `DiceSum.Text.isBlank`, `DiceSum.Text.compact` — the test, and a text without its blanks.
* `DiceSum.Text.trim` — a text without the blanks at its ends.
-/

namespace DiceSum.Text

/-- The white space of Unicode. -/
def blanks : CharSet where
  ranges :=
    [(0x9, 0xd), (0x20, 0x20), (0x85, 0x85), (0xa0, 0xa0), (0x1680, 0x1680), (0x2000, 0x200a),
      (0x2028, 0x2029), (0x202f, 0x202f), (0x205f, 0x205f), (0x3000, 0x3000)]

/-- Whether a character is white space. -/
def isBlank (c : Char) : Bool := blanks.contains c

/-- The characters of a text that are not blank, in order. -/
def compact (s : List Char) : List Char := s.filter fun c => !isBlank c

theorem compact_append (s t : List Char) : compact (s ++ t) = compact s ++ compact t :=
  List.filter_append ..

theorem compact_compact (s : List Char) : compact (compact s) = compact s := by
  simp [compact, List.filter_filter]

theorem compact_eq_nil_iff {s : List Char} : compact s = [] ↔ ∀ c ∈ s, isBlank c = true := by
  simp [compact]

/-- A text without the blanks at its two ends. -/
def trim (s : List Char) : List Char :=
  ((s.dropWhile isBlank).reverse.dropWhile isBlank).reverse

end DiceSum.Text
