import DiceSum.Proofs.GreedyCut
import DiceSum.Proofs.Overflow

/-!
# Reading the text of a roll

The text of a roll, such as `[3, 5, -2] - 4 = 2`, shows the faces in brackets, the modifier as a
sign and a magnitude unless it is zero, and the total. No separator is part of a number, so that the
text can be read from the left, each number as far as its digits go. What is read is the roll, and
the numbers add up as the text says. The magnitude is read as a natural number: that of the least
word is no word itself.

## Main definitions

* `DiceSum.Text.natural?`, `DiceSum.Text.integer?` — the number at the start of a text.
* `DiceSum.Breakdown`, `DiceSum.Breakdown.ofText?` — the numbers in the text of a roll.

## Main results

* `DiceSum.Text.integer?_integer_append` — an integer is read back in front of a text that does not
  prolong it.
* `DiceSum.Breakdown.ofText?_text`, `DiceSum.Roll.text_injective` — so is the whole text of a roll,
  which no other roll has.
* `DiceSum.Roll.text_adds_up` — the text determines the roll, and its numbers add up.
-/

namespace DiceSum

open Word (Fits)

/-! ### Numbers at the start of a text -/

namespace Text

open Lexeme (digits afterDigits)

/-- The natural number at the start of a text, and what follows it. -/
def natural? (w : List Char) : Option (Nat × List Char) :=
  if digits w = [] then none else some (value (digits w), afterDigits w)

/-- The integer that starts with the minus sign of a text, and what follows it. -/
def negative? : List Char → Option (Int × List Char)
  | '-' :: w => (natural? w).map (Prod.map (fun n : Nat => -(n : Int)) id)
  | _ => none

/-- The integer at the start of a text, and what follows it. -/
def integer? (w : List Char) : Option (Int × List Char) :=
  match natural? w with
  | some (n, v) => some (n, v)
  | none => negative? w

variable {w v : List Char}

theorem natural?_eq_none {c : Char} (hc : c.isDigit = false) (w : List Char) :
    natural? (c :: w) = none :=
  if_pos (Lexeme.digits_cons_of_not hc w)

/-- A numeral is read up to its end in front of a text that does not prolong it. -/
theorem natural?_numeral_append (n : Nat) (hw : digits w = []) :
    natural? (numeral n ++ w) = some (n, w) := by
  have hn : Digits (numeral n) := fun _ => isDigit_of_mem_numeral
  rw [natural?, Lexeme.digits_append hn hw, Lexeme.afterDigits_append hn hw,
    if_neg (numeral_ne_nil n), value_numeral]

/-- An integer is read up to its end in front of a text that does not prolong it. -/
theorem integer?_integer_append (x : Int) (hw : digits w = []) :
    integer? (integer x ++ w) = some (x, w) := by
  rw [integer]
  by_cases hneg : x < 0
  · have hx : -(x.natAbs : Int) = x := by omega
    rw [if_pos hneg, List.cons_append, integer?, natural?_eq_none rfl]
    simp only [negative?, natural?_numeral_append _ hw, Option.map_some, Prod.map_apply, hx, id]
  · have hx : (x.natAbs : Int) = x := by omega
    rw [if_neg hneg, integer?, natural?_numeral_append _ hw]
    simp only [hx]

theorem length_le_of_natural? {n : Nat} (h : natural? w = some (n, v)) : v.length ≤ w.length := by
  rw [natural?] at h
  split at h
  · cases h
  · cases h
    exact List.length_dropWhile_le _ _

theorem length_le_of_negative? {x : Int} (h : negative? w = some (x, v)) :
    v.length ≤ w.length := by
  rw [negative?.eq_def] at h
  split at h
  · obtain ⟨⟨n, u⟩, hu, hx⟩ := Option.map_eq_some_iff.mp h
    cases hx
    exact (length_le_of_natural? hu).trans (Nat.le_succ _)
  · cases h

theorem length_le_of_integer? {x : Int} (h : integer? w = some (x, v)) : v.length ≤ w.length := by
  rw [integer?] at h
  split at h
  · next n u hu =>
    cases h
    exact length_le_of_natural? hu
  · exact length_le_of_negative? h

end Text

/-! ### The text of a roll -/

/-- The numbers in the text of a roll. -/
structure Breakdown where
  /-- The integers in brackets. -/
  faces : List Int
  /-- The sign in front of the modifier, plus if there is no modifier. -/
  sign : Sign
  /-- The number behind that sign, zero if there is no modifier. -/
  magnitude : Nat
  /-- The number behind the equals sign. -/
  total : Int
  deriving DecidableEq, Repr

namespace Breakdown

open Text (integer? natural?)

/-- The integers up to the closing bracket, each behind a comma and a space, and what follows the
bracket. -/
def moreFaces? : List Char → Option (List Int × List Char)
  | ']' :: w => some ([], w)
  | ',' :: ' ' :: w =>
    match _h : integer? w with
    | some (x, v) => (moreFaces? v).map (Prod.map (x :: ·) id)
    | none => none
  | _ => none
  termination_by w => w.length
  decreasing_by
    have hle := Text.length_le_of_integer? _h
    simp only [List.length_cons]
    omega

/-- What follows a closing bracket. -/
def closed? : List Char → Option (List Char)
  | ']' :: w => some w
  | _ => none

/-- The integers up to the closing bracket, with a comma and a space between two of them, and what
follows the bracket. -/
def faces? (w : List Char) : Option (List Int × List Char) :=
  match integer? w with
  | some (x, v) => (moreFaces? v).map (Prod.map (x :: ·) id)
  | none => (closed? w).map (Prod.mk [])

/-- The sign and the magnitude of a term between spaces, plus and zero if there is none, and what
follows it. -/
def modifier? (w : List Char) : Option ((Sign × Nat) × List Char) :=
  match w with
  | ' ' :: c :: ' ' :: v =>
    match Sign.ofChar? c with
    | some s => (natural? v).map (Prod.map (Prod.mk s) id)
    | none => some ((.plus, 0), w)
  | _ => some ((.plus, 0), w)

/-- The integer behind an equals sign between spaces, up to the end. -/
def total? : List Char → Option Int
  | ' ' :: '=' :: ' ' :: w =>
    match integer? w with
    | some (x, []) => some x
    | _ => none
  | _ => none

/-- Reads the text of a roll. -/
def ofChars? : List Char → Option Breakdown
  | '[' :: w => do
    let (faces, w) ← faces? w
    let ((sign, magnitude), w) ← modifier? w
    let total ← total? w
    return ⟨faces, sign, magnitude, total⟩
  | _ => none

/-- Reads the text of a roll. -/
def ofText? (s : String) : Option Breakdown := ofChars? s.toList

/-! ### Reading what was written -/

variable {w : List Char}

theorem moreFaces?_of_integer? {x : Int} {v : List Char} (h : integer? w = some (x, v)) :
    moreFaces? (',' :: ' ' :: w) = (moreFaces? v).map (Prod.map (x :: ·) id) := by
  rw [moreFaces?]
  split
  · next hx =>
    rw [h] at hx
    cases hx
    rfl
  · next hnone =>
    rw [h] at hnone
    cases hnone

/-- No digit stands behind an integer in brackets. -/
theorem digits_more_eq_nil (xs : List Int) (w : List Char) :
    Lexeme.digits ((xs.flatMap fun x => ',' :: ' ' :: Text.integer x) ++ ']' :: w) = [] := by
  cases xs with
  | nil => exact Lexeme.digits_cons_of_not rfl _
  | cons x xs => exact Lexeme.digits_cons_of_not rfl _

theorem moreFaces?_append (xs : List Int) (w : List Char) :
    moreFaces? ((xs.flatMap fun x => ',' :: ' ' :: Text.integer x) ++ ']' :: w) = some (xs, w) := by
  induction xs with
  | nil => rw [List.flatMap_nil, List.nil_append, moreFaces?]
  | cons x xs ih =>
    have hx := Text.integer?_integer_append x (digits_more_eq_nil xs w)
    rw [List.flatMap_cons, List.append_assoc, List.cons_append, List.cons_append,
      moreFaces?_of_integer? hx, ih]
    rfl

/-- The faces are read back in front of any text. -/
theorem faces?_rowChars_append (xs : List Int) (w : List Char) :
    faces? (Roll.rowChars xs ++ ']' :: w) = some (xs, w) := by
  cases xs with
  | nil =>
    have hnone : integer? (']' :: w) = none := by
      rw [Text.integer?, Text.natural?_eq_none rfl]
      rfl
    rw [Roll.rowChars, List.nil_append, faces?, hnone]
    rfl
  | cons x xs =>
    have hx := Text.integer?_integer_append x (digits_more_eq_nil xs w)
    rw [Roll.rowChars, List.append_assoc, faces?, hx]
    simp only [moreFaces?_append]
    rfl

/-- The sign that a modifier is written with, plus if it is zero. -/
def signOf (modifier : Int) : Sign := if modifier < 0 then .minus else .plus

theorem signOf_apply_natAbs (x : Int) : (signOf x).apply x.natAbs = x := Sign.apply_natAbs x

/-- The modifier is read back in front of an equals sign. -/
theorem modifier?_modifierChars_append (x : Int) (w : List Char) :
    modifier? (Roll.modifierChars x ++ ' ' :: '=' :: ' ' :: w) =
      some ((signOf x, x.natAbs), ' ' :: '=' :: ' ' :: w) := by
  have hdigits : Lexeme.digits (' ' :: '=' :: ' ' :: w) = [] := Lexeme.digits_cons_of_not rfl _
  have hread := Text.natural?_numeral_append x.natAbs hdigits
  have hminus : Sign.ofChar? '-' = some .minus := rfl
  have hplus : Sign.ofChar? '+' = some .plus := rfl
  rw [Roll.modifierChars, signOf]
  by_cases hzero : x = 0
  · rw [if_pos hzero, hzero]
    rfl
  · rw [if_neg hzero]
    by_cases hneg : x < 0
    · rw [if_pos hneg, if_pos hneg]
      simp only [List.cons_append, modifier?, hminus, hread, Option.map_some, Prod.map_apply, id]
    · rw [if_neg hneg, if_neg hneg]
      simp only [List.cons_append, modifier?, hplus, hread, Option.map_some, Prod.map_apply, id]

theorem total?_integer (x : Int) :
    total? (' ' :: '=' :: ' ' :: Text.integer x) = some x := by
  have hread := Text.integer?_integer_append x Lexeme.digits_nil
  rw [List.append_nil] at hread
  rw [total?, hread]

/-- The text of a roll is read as its faces, its modifier and its total. -/
theorem ofText?_text (r : Roll) :
    ofText? r.text = some ⟨r.faces, signOf r.modifier, r.modifier.natAbs, r.total⟩ := by
  rw [ofText?, Roll.toList_text, Roll.chars, ofChars?]
  simp only [faces?_rowChars_append, modifier?_modifierChars_append, total?_integer,
    Option.bind_eq_bind, Option.bind_some, Option.pure_def]

end Breakdown

namespace Roll

/-- Rolls with the same text have the same faces and the same modifier, so they are equal. -/
theorem text_injective : Function.Injective text := by
  intro r r' h
  have hread := Breakdown.ofText?_text r
  rw [h, Breakdown.ofText?_text, Option.some.injEq, Breakdown.mk.injEq] at hread
  obtain ⟨hfaces, hsign, hmagnitude, -⟩ := hread
  have hmodifier : r.modifier = r'.modifier := by
    rw [← Breakdown.signOf_apply_natAbs r.modifier, ← hsign, ← hmagnitude,
      Breakdown.signOf_apply_natAbs]
  cases r
  cases r'
  cases hfaces
  cases hmodifier
  rfl

/-- **The text of a roll determines it and adds up.** What is read from the text is the faces, the
modifier as a sign and a magnitude, and the total. The faces and the signed magnitude, which is zero
if no modifier is written, add up to the total, and this is also the total in words unless that
stops. The least word is read as well, although its magnitude is no word. So rolls with the same
text are equal. -/
theorem text_adds_up (r : Roll) :
    (∃ b, Breakdown.ofText? r.text = some b ∧ b.faces = r.faces ∧
      b.sign.apply b.magnitude = r.modifier ∧ b.total = r.total ∧
      b.faces.sum + b.sign.apply b.magnitude = b.total ∧
      (∀ total, wordTotal? r.faces r.modifier = some total → b.total = total) ∧
      (r.modifier = 0 → b.magnitude = 0) ∧
      (r.modifier = Word.least → b.magnitude = 9223372036854775808 ∧ ¬ Fits b.magnitude)) ∧
    ∀ r' : Roll, r'.text = r.text → r' = r := by
  constructor
  · refine ⟨_, Breakdown.ofText?_text r, rfl, Breakdown.signOf_apply_natAbs r.modifier, rfl, ?_,
      fun total h => ?_, fun h => ?_, fun h => ?_⟩
    · rw [Breakdown.signOf_apply_natAbs, total_eq]
    · rw [total_eq, (wordTotal?_eq_some_iff.mp h).2.2]
    · rw [h, Int.natAbs_zero]
    · rw [h]
      refine ⟨rfl, ?_⟩
      change ¬ Fits (Word.least.natAbs : Int)
      decide
  · exact fun r' h => text_injective h

/-- Two faces and the least word. -/
def atLeast : Roll := ⟨[9223372036854775807, -3], Word.least⟩

theorem text_adds_up_atLeast :
    atLeast.text = "[9223372036854775807, -3] - 9223372036854775808 = -4" ∧
    wordTotal? atLeast.faces atLeast.modifier = some (-4) ∧
    ∃ b, Breakdown.ofText? "[9223372036854775807, -3] - 9223372036854775808 = -4" = some b ∧
      b.magnitude = 9223372036854775808 ∧ b.faces.sum + b.sign.apply b.magnitude = -4 := by
  have htext : atLeast.text = "[9223372036854775807, -3] - 9223372036854775808 = -4" := by cbv
  have htotal : wordTotal? atLeast.faces atLeast.modifier = some (-4) := by decide
  obtain ⟨b, hread, -, -, -, hsum, hwords, -, hleast⟩ := (text_adds_up atLeast).1
  rw [htext] at hread
  exact ⟨htext, htotal, b, hread, (hleast rfl).1, hsum.trans (hwords _ htotal)⟩

end Roll

end DiceSum
