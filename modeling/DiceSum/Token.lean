import DiceSum.Dice
import DiceSum.Lexeme
import DiceSum.Text.Numeral
import DiceSum.Word

/-!
# What a lexeme means

A dice literal means a number of dice and a number of sides, an integer literal means a number. A
literal whose numbers are out of range means nothing, like a stray character. Leading zeros do not
matter, and a dice literal that starts with `d` is one die.

## Main definitions

* `DiceSum.Token` — the meanings.
* `DiceSum.Lexeme.token` — the meaning of a lexeme.

## Main results

* `DiceSum.Lexeme.fits_of_token_eq_integer` — the number of an integer literal fits in 64 bits,
  with either sign.
-/

namespace DiceSum

/-- The meaning of a lexeme. -/
inductive Token where
  | dice (count sides : Quantity)
  | integer (value : Nat)
  | sign (s : Sign)
  /-- A stray character or a literal out of range. -/
  | unreadable
  deriving DecidableEq, Repr

/-- The quantity that a row of digits denotes, if it is in range. -/
def Quantity.ofDigits? (digits : List Char) : Option Quantity :=
  Quantity.ofNat? (Text.value digits)

/-- The number of dice that the digits before the letter `d` denote: one if there are none. -/
def Quantity.ofCountDigits? (digits : List Char) : Option Quantity :=
  if digits = [] then some Quantity.one else Quantity.ofDigits? digits

namespace Lexeme

/-- The meaning of a lexeme. -/
def token : Lexeme → Token
  | dice count sides =>
    match Quantity.ofCountDigits? count, Quantity.ofDigits? sides with
    | some count, some sides => .dice count sides
    | _, _ => .unreadable
  | integer digits =>
    if Word.Fits (Text.value digits) then .integer (Text.value digits) else .unreadable
  | sign s => .sign s
  | stray _ => .unreadable

theorem fits_of_token_eq_integer {l : Lexeme} {x : Nat} (h : l.token = .integer x) :
    Word.Fits x ∧ Word.Fits (-(x : Int)) := by
  cases l with
  | dice count sides =>
    rw [token] at h
    split at h <;> cases h
  | integer digits =>
    rw [token] at h
    split at h
    · next hx =>
      cases h
      rw [Word.fits_iff] at hx ⊢
      rw [Word.fits_iff]
      omega
    · cases h
  | sign s => cases h
  | stray c => cases h

theorem token_eq_sign {l : Lexeme} {s : Sign} : l.token = .sign s ↔ l = .sign s := by
  cases l with
  | dice count sides =>
    rw [token]
    split <;> simp
  | integer digits =>
    rw [token]
    split <;> simp
  | sign t => simp [token]
  | stray c => simp [token]

end Lexeme

end DiceSum
