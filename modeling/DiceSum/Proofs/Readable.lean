import DiceSum.Token
import Mathlib

/-!
# Readable literals

A dice literal is readable exactly when its number of sides, and its number of dice if one is
written, are in range. An integer literal is readable exactly when its number is at most the
greatest word, whatever its sign.

## Main definitions

* `DiceSum.Quantity.InRange` — the numbers of dice and of sides.

## Main results

* `DiceSum.Lexeme.token_dice_eq_unreadable_iff`, `DiceSum.Lexeme.token_integer_eq_unreadable_iff` —
  the literals out of range.
-/

namespace DiceSum

namespace Quantity

/-- The numbers that are a number of dice or of sides. -/
def InRange (n : Nat) : Prop := 1 ≤ n ∧ n ≤ 4294967295

theorem inRange_toNat (q : Quantity) : InRange q.toNat := by
  have hpos := q.pos
  have hlt := q.lt
  rw [InRange]
  omega

theorem ofNat?_eq_none_iff_not_inRange {n : Nat} : ofNat? n = none ↔ ¬ InRange n := by
  rw [ofNat?_eq_none, InRange]
  omega

theorem exists_ofNat?_iff {n : Nat} : (∃ q, ofNat? n = some q) ↔ InRange n := by
  rw [← Option.ne_none_iff_exists', ne_eq, ofNat?_eq_none_iff_not_inRange, not_not]

theorem ofCountDigits?_eq_none_iff {digits : List Char} :
    ofCountDigits? digits = none ↔ ¬ (digits = [] ∨ InRange (Text.value digits)) := by
  by_cases h : digits = []
  · simp [ofCountDigits?, h]
  · simp [ofCountDigits?, h, ofDigits?, ofNat?_eq_none_iff_not_inRange]

end Quantity

theorem Word.fits_natCast_iff {n : Nat} : Word.Fits (n : Int) ↔ n ≤ 9223372036854775807 := by
  rw [Word.fits_iff]
  omega

namespace Lexeme

variable {count sides digits : List Char}

/-- A dice literal is not readable exactly when one of its numbers is out of range. -/
theorem token_dice_eq_unreadable_iff :
    (dice count sides).token = .unreadable ↔
      ¬ ((count = [] ∨ Quantity.InRange (Text.value count)) ∧
        Quantity.InRange (Text.value sides)) := by
  rw [not_and_or, ← Quantity.ofCountDigits?_eq_none_iff,
    ← Quantity.ofNat?_eq_none_iff_not_inRange, ← Quantity.ofDigits?, token]
  cases Quantity.ofCountDigits? count <;> cases Quantity.ofDigits? sides <;> simp

theorem exists_token_dice (h : (dice count sides).token ≠ .unreadable) :
    ∃ q r, (dice count sides).token = .dice q r := by
  rw [token] at h ⊢
  cases hcount : Quantity.ofCountDigits? count with
  | none => simp [hcount] at h
  | some q =>
    cases hsides : Quantity.ofDigits? sides with
    | none => simp [hcount, hsides] at h
    | some r => exact ⟨q, r, rfl⟩

theorem token_integer (h : Text.value digits ≤ 9223372036854775807) :
    (integer digits).token = .integer (Text.value digits) :=
  if_pos (Word.fits_natCast_iff.mpr h)

/-- An integer literal is not readable exactly when it is greater than the greatest word. -/
theorem token_integer_eq_unreadable_iff :
    (integer digits).token = .unreadable ↔ 9223372036854775807 < Text.value digits := by
  by_cases h : Text.value digits ≤ 9223372036854775807
  · rw [token_integer h]
    exact iff_of_false Token.noConfusion (Nat.not_lt.mpr h)
  · exact iff_of_true (if_neg (mt Word.fits_natCast_iff.mp h)) (Nat.not_le.mp h)

theorem eq_integer_of_token {l : Lexeme} {x : Nat} (h : l.token = .integer x) :
    ∃ digits, l = integer digits ∧ Text.value digits ≤ 9223372036854775807 ∧
      Text.value digits = x := by
  cases l with
  | dice count sides =>
    rw [token] at h
    split at h <;> cases h
  | integer digits =>
    have hle : Text.value digits ≤ 9223372036854775807 := by
      rw [← Nat.not_lt, ← token_integer_eq_unreadable_iff, h]
      exact Token.noConfusion
    rw [token_integer hle, Token.integer.injEq] at h
    exact ⟨digits, rfl, hle, h⟩
  | sign s => cases h
  | stray c => cases h

end Lexeme

end DiceSum
