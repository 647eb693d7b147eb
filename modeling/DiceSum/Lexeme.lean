import DiceSum.Sign

/-!
# Lexemes of a notation

A notation without blanks is cut, from the left, into dice literals `[0-9]*d[0-9]+`, integer
literals `[0-9]+`, signs and stray characters. The cut is greedy: a lexeme is the longest one that
starts where it does, and a stray character is one at which nothing else starts. Thus `12d` is the
integer `12` and a stray `d`, and `61d8` is one dice literal.

A lexeme holds the digits as they are written; what they mean is the business of
`DiceSum.Lexeme.token`.

## Main definitions

* `DiceSum.Lexeme` — a piece of a notation, with `DiceSum.Lexeme.text` as its characters.
* `DiceSum.Lexeme.first` — the lexeme that a non-empty text starts with, and the text after it.
* `DiceSum.Lexeme.cut` — all lexemes of a text.
* `DiceSum.Lexeme.size` — the number of bytes that a lexeme takes in UTF-8.

## Main results

* `DiceSum.Lexeme.flatMap_text_cut` — the lexemes of a text make up the text.
* `DiceSum.Lexeme.text_ne_nil_of_mem_cut` — none of them is empty.
-/

namespace DiceSum

/-- A piece of a notation, as it is written. -/
inductive Lexeme where
  /-- The digits before and after the letter `d`. -/
  | dice (count sides : List Char)
  | integer (digits : List Char)
  | sign (s : Sign)
  /-- A character at which no other lexeme starts. -/
  | stray (c : Char)
  deriving DecidableEq, Repr

namespace Lexeme

/-- The characters of a lexeme. -/
def text : Lexeme → List Char
  | dice count sides => count ++ 'd' :: sides
  | integer digits => digits
  | sign s => [s.char]
  | stray c => [c]

/-- The number of bytes that a text takes in UTF-8. -/
def utf8Size (w : List Char) : Nat := w.foldr (fun c size => c.utf8Size + size) 0

@[simp] theorem utf8Size_nil : utf8Size [] = 0 := rfl

@[simp] theorem utf8Size_cons (c : Char) (w : List Char) :
    utf8Size (c :: w) = c.utf8Size + utf8Size w := rfl

@[simp] theorem utf8Size_append (v w : List Char) :
    utf8Size (v ++ w) = utf8Size v + utf8Size w := by
  induction v with
  | nil => exact (Nat.zero_add _).symm
  | cons c v ih => rw [List.cons_append, utf8Size_cons, utf8Size_cons, ih, Nat.add_assoc]

/-- The number of bytes that a lexeme takes in UTF-8. -/
def size (l : Lexeme) : Nat := utf8Size l.text

/-! ### The first lexeme -/

/-- The longest row of digits at the start of a text. -/
def digits (w : List Char) : List Char := w.takeWhile Char.isDigit

/-- What follows the digits at the start of a text. -/
def afterDigits (w : List Char) : List Char := w.dropWhile Char.isDigit

theorem digits_append_afterDigits (w : List Char) : digits w ++ afterDigits w = w :=
  List.takeWhile_append_dropWhile

/-- The dice literal at the start of a text, and what follows it. -/
def dice? (w : List Char) : Option (Lexeme × List Char) :=
  match afterDigits w with
  | 'd' :: v => if digits v = [] then none else some (dice (digits w) (digits v), afterDigits v)
  | _ => none

/-- The row of digits at the start of a text, and what follows it. -/
def integer? (w : List Char) : Option (Lexeme × List Char) :=
  if digits w = [] then none else some (integer (digits w), afterDigits w)

/-- The lexeme that the text `c :: w` starts with, and what follows it. A dice literal is longer
than the row of digits it starts with, so it is tried first. -/
def first (c : Char) (w : List Char) : Lexeme × List Char :=
  match dice? (c :: w) with
  | some r => r
  | none =>
    match integer? (c :: w) with
    | some r => r
    | none =>
      match Sign.ofChar? c with
      | some s => (sign s, w)
      | none => (stray c, w)

theorem text_append_of_dice? {w v : List Char} {l : Lexeme} (h : dice? w = some (l, v)) :
    l.text ++ v = w ∧ l.text ≠ [] := by
  rw [dice?] at h
  split at h
  · next u hu =>
    split at h
    · cases h
    · cases h
      refine ⟨?_, by simp [text]⟩
      rw [text, List.append_assoc, List.cons_append, digits_append_afterDigits, ← hu,
        digits_append_afterDigits]
  · cases h

theorem text_append_of_integer? {w v : List Char} {l : Lexeme} (h : integer? w = some (l, v)) :
    l.text ++ v = w ∧ l.text ≠ [] := by
  rw [integer?] at h
  split at h
  · cases h
  · next hd =>
    cases h
    exact ⟨digits_append_afterDigits w, hd⟩

/-- The first lexeme and what follows it make up the text, and the lexeme is not empty. -/
theorem text_append_first (c : Char) (w : List Char) :
    (first c w).1.text ++ (first c w).2 = c :: w ∧ (first c w).1.text ≠ [] := by
  rw [first]
  split
  · next h => exact text_append_of_dice? h
  · split
    · next h => exact text_append_of_integer? h
    · split
      · next h => simp [text, Sign.char_of_ofChar? h]
      · simp [text]

theorem length_first_lt (c : Char) (w : List Char) :
    (first c w).2.length < (c :: w).length := by
  obtain ⟨happ, hne⟩ := text_append_first c w
  have hlen := congrArg List.length happ
  have hpos := List.length_pos_iff.mpr hne
  rw [List.length_append] at hlen
  omega

/-! ### All lexemes -/

/-- The lexemes of a text, from the left. -/
def cut : List Char → List Lexeme
  | [] => []
  | c :: w => (first c w).1 :: cut (first c w).2
  termination_by w => w.length
  decreasing_by exact length_first_lt c w

@[simp] theorem cut_nil : cut [] = [] := by rw [cut]

theorem cut_cons (c : Char) (w : List Char) :
    cut (c :: w) = (first c w).1 :: cut (first c w).2 := by rw [cut]

/-- The lexemes of a text, one after another, make up the text. -/
theorem flatMap_text_cut (w : List Char) : (cut w).flatMap text = w := by
  fun_induction cut w with
  | case1 => rfl
  | case2 c w ih => rw [List.flatMap_cons, ih, (text_append_first c w).1]

theorem text_ne_nil_of_mem_cut {w : List Char} {l : Lexeme} (h : l ∈ cut w) : l.text ≠ [] := by
  fun_induction cut w with
  | case1 => cases h
  | case2 c w ih =>
    rcases List.mem_cons.mp h with rfl | h
    · exact (text_append_first c w).2
    · exact ih h

end Lexeme

end DiceSum
