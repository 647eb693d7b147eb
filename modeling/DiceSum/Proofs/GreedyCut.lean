import DiceSum.Lexeme

/-!
# Greedy cuts

A row of lexemes is the greedy cut of its text exactly when every lexeme of it can stand on its own
and none of them can be prolonged into the text behind it. Digits prolong a literal and a stray
letter `d`; a letter `d` with a digit behind it prolongs a row of digits.

The second condition looks at the text behind a lexeme and not at the next lexeme only, because
the letter `d` alone does not prolong a row of digits: `12d` is cut into `12` and `d`.

## Main definitions

* `DiceSum.Text.Digits` — rows of digits.
* `DiceSum.Lexeme.Formed`, `DiceSum.Lexeme.EndsBefore` — the two conditions on one lexeme.
* `DiceSum.Lexeme.Greedy` — the conditions on a row of lexemes.

## Main results

* `DiceSum.Lexeme.cut_text_append` — a lexeme is cut off in front of a text that does not prolong
  it.
* `DiceSum.Lexeme.cut_eq_iff` — the greedy rows are the cuts.
-/

namespace DiceSum

/-- A row of decimal digits. -/
def Text.Digits (w : List Char) : Prop := ∀ c ∈ w, c.isDigit = true

namespace Lexeme

open Text (Digits)

/-! ### Rows of digits at the start of a text -/

theorem digits_append {v w : List Char} (hv : Digits v) (hw : digits w = []) :
    digits (v ++ w) = v := by
  rw [digits, List.takeWhile_append_of_pos hv]
  exact (congrArg (v ++ ·) hw).trans (List.append_nil v)

theorem afterDigits_of_digits_eq_nil {w : List Char} (hw : digits w = []) : afterDigits w = w := by
  simpa [hw] using digits_append_afterDigits w

theorem afterDigits_append {v w : List Char} (hv : Digits v) (hw : digits w = []) :
    afterDigits (v ++ w) = w := by
  rw [afterDigits, List.dropWhile_append_of_pos hv]
  exact afterDigits_of_digits_eq_nil hw

theorem digits_digits (w : List Char) : Digits (digits w) := fun _ hc =>
  List.all_eq_true.mp List.all_takeWhile _ hc

@[simp] theorem digits_nil : digits [] = [] := rfl

theorem digits_cons_of_not {c : Char} (hc : c.isDigit = false) (w : List Char) :
    digits (c :: w) = [] :=
  List.takeWhile_cons_of_neg (by simp [hc])

theorem not_isDigit_of_digits_eq_nil {c : Char} {w : List Char} (h : digits (c :: w) = []) :
    c.isDigit = false := by
  cases hc : c.isDigit with
  | false => rfl
  | true =>
    rw [digits, List.takeWhile_cons_of_pos hc] at h
    cases h

/-- A row of digits stops at a character that is none. -/
theorem digits_afterDigits (w : List Char) : digits (afterDigits w) = [] := by
  cases hw : afterDigits w with
  | nil => rfl
  | cons c v =>
    refine digits_cons_of_not ?_ v
    have h := List.head?_dropWhile_not Char.isDigit w
    rw [← afterDigits, hw] at h
    simpa using h

/-! ### One lexeme -/

/-- A lexeme that can stand on its own: a literal is made of digits, and a stray character is no
digit and no sign. -/
def Formed : Lexeme → Prop
  | dice count sides => Digits count ∧ Digits sides ∧ sides ≠ []
  | integer digits => Digits digits ∧ digits ≠ []
  | sign _ => True
  | stray c => c.isDigit = false ∧ Sign.ofChar? c = none

/-- A lexeme that the text behind it does not prolong. -/
def EndsBefore (w : List Char) : Lexeme → Prop
  | dice _ _ => digits w = []
  | integer _ => digits w = [] ∧ ∀ v, w = 'd' :: v → digits v = []
  | sign _ => True
  | stray c => c = 'd' → digits w = []

theorem Formed.text_ne_nil {l : Lexeme} (hl : l.Formed) : l.text ≠ [] := by
  cases l with
  | dice count sides => simp [text]
  | integer digits => exact hl.2
  | sign s => simp [text]
  | stray c => simp [text]

theorem first_of_dice? {c : Char} {w : List Char} {r : Lexeme × List Char}
    (h : dice? (c :: w) = some r) : first c w = r := by
  rw [first, h]

theorem first_of_integer? {c : Char} {w : List Char} {r : Lexeme × List Char}
    (hd : dice? (c :: w) = none) (h : integer? (c :: w) = some r) : first c w = r := by
  rw [first, hd, h]

theorem integer?_eq_none_iff {w : List Char} : integer? w = none ↔ digits w = [] := by
  simp [integer?]

/-- A dice literal is the digits at the start, the letter `d` and at least one digit. -/
theorem dice?_eq_none_iff {w : List Char} :
    dice? w = none ↔ ∀ v, afterDigits w = 'd' :: v → digits v = [] := by
  constructor
  · intro h v hv
    simpa [dice?, hv] using h
  · intro h
    rw [dice?]
    split
    · next v hv => rw [if_pos (h v hv)]
    · rfl

theorem dice?_cons_eq_none_iff {c : Char} (hc : c.isDigit = false) {w : List Char} :
    dice? (c :: w) = none ↔ (c = 'd' → digits w = []) := by
  rw [dice?_eq_none_iff, afterDigits_of_digits_eq_nil (digits_cons_of_not hc w)]
  constructor
  · rintro h rfl
    exact h w rfl
  · rintro h v hv
    obtain ⟨rfl, rfl⟩ := List.cons.inj hv
    exact h rfl

theorem integer?_cons_eq_none {c : Char} (hc : c.isDigit = false) (w : List Char) :
    integer? (c :: w) = none :=
  integer?_eq_none_iff.mpr (digits_cons_of_not hc w)

theorem isDigit_char (s : Sign) : s.char.isDigit = false := by
  cases s <;> rfl

theorem char_ne_d (s : Sign) : s.char ≠ 'd' := by
  cases s <;> decide

theorem first_sign (s : Sign) (w : List Char) : first s.char w = (sign s, w) := by
  rw [first, (dice?_cons_eq_none_iff (isDigit_char s)).mpr fun h => absurd h (char_ne_d s),
    integer?_cons_eq_none (isDigit_char s)]
  simp only [Sign.ofChar?_char]

theorem first_stray {c : Char} {w : List Char} (hc : (stray c).Formed)
    (hw : (stray c).EndsBefore w) : first c w = (stray c, w) := by
  rw [first, (dice?_cons_eq_none_iff hc.1).mpr hw, integer?_cons_eq_none hc.1]
  simp only [hc.2]

theorem dice?_text_append {count sides w : List Char} (hl : (dice count sides).Formed)
    (hw : digits w = []) : dice? ((dice count sides).text ++ w) = some (dice count sides, w) := by
  obtain ⟨hcount, hsides, hne⟩ := hl
  have hd : digits ('d' :: (sides ++ w)) = [] := digits_cons_of_not rfl _
  rw [text, List.append_assoc, List.cons_append, dice?, digits_append hcount hd,
    afterDigits_append hcount hd]
  simp only [digits_append hsides hw, afterDigits_append hsides hw, if_neg hne]

theorem dice?_integer_append {v w : List Char} (hv : Digits v) (hw : (integer v).EndsBefore w) :
    dice? (v ++ w) = none := by
  rw [dice?_eq_none_iff, afterDigits_append hv hw.1]
  exact hw.2

theorem integer?_text_append {v w : List Char} (hv : (integer v).Formed)
    (hw : digits w = []) : integer? (v ++ w) = some (integer v, w) := by
  rw [integer?, digits_append hv.1 hw, afterDigits_append hv.1 hw, if_neg hv.2]

/-- A lexeme is the first one of a text that starts with it and does not prolong it. -/
theorem cut_text_append {l : Lexeme} {w : List Char} (hl : l.Formed) (hw : l.EndsBefore w) :
    cut (l.text ++ w) = l :: cut w := by
  have hne : l.text ++ w ≠ [] := fun h => hl.text_ne_nil (List.append_eq_nil_iff.mp h).1
  obtain ⟨c, v, hcv⟩ := List.exists_cons_of_ne_nil hne
  have hfirst : first c v = (l, w) := by
    cases l with
    | dice count sides => exact first_of_dice? (hcv ▸ dice?_text_append hl hw)
    | integer digits =>
      exact first_of_integer? (hcv ▸ dice?_integer_append hl.1 hw)
        (hcv ▸ integer?_text_append hl hw.1)
    | sign s =>
      obtain ⟨rfl, rfl⟩ := List.cons.inj hcv
      exact first_sign s w
    | stray c' =>
      obtain ⟨rfl, rfl⟩ := List.cons.inj hcv
      exact first_stray hl hw
  rw [hcv, cut_cons, hfirst]

theorem formed_of_dice? {w v : List Char} {l : Lexeme} (h : dice? w = some (l, v)) :
    l.Formed ∧ l.EndsBefore v := by
  rw [dice?] at h
  split at h
  · next u hu =>
    split at h
    · cases h
    · next hne =>
      cases h
      exact ⟨⟨digits_digits w, digits_digits u, hne⟩, digits_afterDigits u⟩
  · cases h

theorem formed_of_integer? {w v : List Char} {l : Lexeme} (hd : dice? w = none)
    (h : integer? w = some (l, v)) : l.Formed ∧ l.EndsBefore v := by
  rw [integer?] at h
  split at h
  · cases h
  · next hne =>
    cases h
    exact ⟨⟨digits_digits w, hne⟩, digits_afterDigits w, dice?_eq_none_iff.mp hd⟩

/-- The first lexeme of a text can stand on its own, and what follows does not prolong it. -/
theorem formed_first (c : Char) (w : List Char) :
    (first c w).1.Formed ∧ (first c w).1.EndsBefore (first c w).2 := by
  rw [first]
  split
  · next h => exact formed_of_dice? h
  · next hdice =>
    split
    · next h => exact formed_of_integer? hdice h
    · next hinteger =>
      have hc : c.isDigit = false :=
        not_isDigit_of_digits_eq_nil (integer?_eq_none_iff.mp hinteger)
      split
      · exact ⟨trivial, trivial⟩
      · next hsign => exact ⟨⟨hc, hsign⟩, (dice?_cons_eq_none_iff hc).mp hdice⟩

/-! ### Rows of lexemes -/

/-- A row of lexemes that can stand on their own, none of which is prolonged by the text of those
behind it. -/
def Greedy : List Lexeme → Prop
  | [] => True
  | l :: ls => l.Formed ∧ l.EndsBefore (ls.flatMap text) ∧ Greedy ls

theorem greedy_sign_cons {s : Sign} {ls : List Lexeme} : Greedy (sign s :: ls) ↔ Greedy ls := by
  simp only [Greedy, Formed, EndsBefore, true_and]

theorem Greedy.formed {ls : List Lexeme} (h : Greedy ls) : ∀ l ∈ ls, l.Formed := by
  induction ls with
  | nil => exact fun l hl => (List.not_mem_nil hl).elim
  | cons l ls ih => exact List.forall_mem_cons.mpr ⟨h.1, ih h.2.2⟩

theorem greedy_cut (w : List Char) : Greedy (cut w) := by
  fun_induction cut w with
  | case1 => trivial
  | case2 c w ih =>
    obtain ⟨hformed, hends⟩ := formed_first c w
    exact ⟨hformed, by rwa [flatMap_text_cut], ih⟩

theorem cut_flatMap_text {ls : List Lexeme} (h : Greedy ls) : cut (ls.flatMap text) = ls := by
  induction ls with
  | nil => exact cut_nil
  | cons l ls ih =>
    obtain ⟨hformed, hends, hrest⟩ := h
    rw [List.flatMap_cons, cut_text_append hformed hends, ih hrest]

/-- The lexemes of a text are the one greedy row that makes up the text. -/
theorem cut_eq_iff {w : List Char} {ls : List Lexeme} :
    cut w = ls ↔ ls.flatMap text = w ∧ Greedy ls := by
  constructor
  · rintro rfl
    exact ⟨flatMap_text_cut w, greedy_cut w⟩
  · rintro ⟨rfl, h⟩
    exact cut_flatMap_text h

example : cut "d61d8+12d".toList =
    [.dice [] ['6', '1'], .dice [] ['8'], .sign .plus, .integer ['1', '2'], .stray 'd'] := by
  cbv

end Lexeme

end DiceSum
