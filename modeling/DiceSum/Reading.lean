import DiceSum.Expression.Bounds
import DiceSum.Rejection
import DiceSum.Text.Blank
import DiceSum.Token

/-!
# Reading a dice notation

A notation is a row of terms, each with an optional sign: dice literals, which become the groups of
the expression, and integer literals, which are added up in the modifier. Blanks are dropped first.
The lexemes are read from the left, with the sign that no term has used yet and the modifier so far
as the only state, and the first fault ends the reading. A row of terms without a fault is an
expression if it has a group and if all its totals fit in 64 bits.

## Main definitions

* `DiceSum.Terms` — what a row of terms amounts to.
* `DiceSum.Terms.read` — reading of lexemes, from any state.
* `DiceSum.Expression.ofTerms` — the two conditions on a whole row of terms.
* `DiceSum.Expression.parse` — reading of a notation.
-/

namespace DiceSum

/-- What a row of terms amounts to: the groups in order, and the sum of the flat terms. -/
structure Terms where
  groups : List Group
  modifier : Int
  deriving DecidableEq, Repr

namespace Terms

/-- The terms with one more group in front. -/
def cons (g : Group) (t : Terms) : Terms := { t with groups := g :: t.groups }

/-- A rejection for the fault `cause` at the lexeme `l`, which starts at byte `position`. -/
def reject (cause : Rejection.Cause) (position : Nat) (l : Lexeme) : Rejection :=
  ⟨cause, position, String.ofList l.text⟩

/-- Reads a row of lexemes that starts at byte `position`. The sign `pending` has been read and
belongs to the next term; `modifier` is the sum of the flat terms so far. -/
def read (position : Nat) (pending : Option Sign) (modifier : Int) :
    List Lexeme → Except Rejection Terms
  | [] =>
    match pending with
    | some _ => .error ⟨.danglingSign, position, ""⟩
    | none => .ok ⟨[], modifier⟩
  | l :: ls =>
    match l.token with
    | .dice count sides =>
      (read (position + l.size) none modifier ls).map
        (cons ⟨count, ⟨sides, pending.getD .plus⟩⟩)
    | .integer x =>
      match Word.checked (modifier + (pending.getD .plus).apply x) with
      | some modifier => read (position + l.size) none modifier ls
      | none => .error (reject .modifierOverflow position l)
    | .sign s =>
      match pending with
      | none => read (position + l.size) (some s) modifier ls
      | some _ => .error (reject (.repeatedSign s) position l)
    | .unreadable => .error (reject .unreadable position l)

/-- The modifier of the terms that are read fits if the modifier at the start does. -/
theorem fits_of_read {ls : List Lexeme} {position : Nat} {pending : Option Sign} {modifier : Int}
    {t : Terms} (h : read position pending modifier ls = .ok t) (hm : Word.Fits modifier) :
    Word.Fits t.modifier := by
  induction ls generalizing position pending modifier t with
  | nil =>
    cases pending with
    | none => cases h; exact hm
    | some s => cases h
  | cons l ls ih =>
    rw [read] at h
    split at h
    · next count sides _ =>
      cases hr : read (position + l.size) none modifier ls with
      | error r =>
        rw [hr] at h
        cases h
      | ok u =>
        rw [hr] at h
        cases h
        have hu := ih hr hm
        exact hu
    · split at h
      · next m hm' => exact ih h ((Word.checked_eq_some.mp hm').2 ▸ (Word.checked_eq_some.mp hm').1)
      · cases h
    · split at h
      · exact ih h hm
      · cases h
    · cases h

end Terms

namespace Expression

/-- The expression that a row of terms denotes. The terms end at byte `size`, where a fault of the
whole row is reported. The modifier of terms that were read always fits (`Terms.fits_of_read`), so
that no expression is made only where there is no group. -/
def ofTerms (size : Nat) (t : Terms) : Except Rejection Expression :=
  match ofParts? t.groups t.modifier with
  | none => .error ⟨.noDice, size, ""⟩
  | some e =>
    match totalBounds t.groups t.modifier with
    | none => .error ⟨.totalOverflow, size, ""⟩
    | some _ => .ok e

/-- Reads a notation without blanks. -/
def parseCompact (w : List Char) : Except Rejection Expression :=
  (Terms.read 0 none 0 (Lexeme.cut w)).bind (ofTerms (Lexeme.utf8Size w))

/-- Reads a notation. -/
def parse (s : String) : Except Rejection Expression :=
  parseCompact (Text.compact s.toList)

end Expression

end DiceSum
