import DiceSum.Proofs.GreedyCut
import Mathlib

/-!
# Patterns of lexemes

Lexemes are given by four regular expressions, `[0-9]*d[0-9]+`, `[0-9]+`, `+` and `-`. The first
lexeme of a text is the longest prefix that one of them matches, and a single stray character if
they match none. Longest does not mean first: in front of `12d` the dice pattern matches nothing,
however far one looks, and the digits are cut off alone.

## Main definitions

* `DiceSum.Lexeme.Pattern`, `DiceSum.Lexeme.Pattern.language` — the patterns, and the texts that
  they match.
* `DiceSum.Lexeme.pattern?` — the pattern of a lexeme.
* `DiceSum.Lexeme.LongestMatch` — what the patterns find at the start of a text.

## Main results

* `DiceSum.Lexeme.Pattern.mem_language_dice_iff`, `DiceSum.Lexeme.Pattern.mem_language_integer_iff`
  — the literals.
* `DiceSum.Lexeme.longestMatch_of_cut` — every lexeme of a text is the longest match where it
  starts.
-/

namespace DiceSum.Lexeme

open Text (Digits)

/-! ### Patterns -/

/-- The four kinds of readable lexemes. -/
inductive Pattern where
  | dice
  | integer
  | plus
  | minus

namespace Pattern

open RegularExpression

/-- The expression `[0-9]`. -/
def digit : RegularExpression Char :=
  (['0', '1', '2', '3', '4', '5', '6', '7', '8', '9'].map char).sum

/-- The regular expression of a pattern. -/
def expression : Pattern → RegularExpression Char
  | dice => star digit * (char 'd' * (digit * star digit))
  | integer => digit * star digit
  | plus => char '+'
  | minus => char '-'

/-- The texts that a pattern matches. -/
def language (p : Pattern) : Language Char := p.expression.matches'

theorem mem_sum_char_iff {cs w : List Char} :
    w ∈ (cs.map char).sum.matches' ↔ ∃ c ∈ cs, w = [c] := by
  induction cs with
  | nil => exact iff_of_false (Language.notMem_zero w) (by simp)
  | cons c cs ih =>
    rw [List.map_cons, List.sum_cons, matches'_add, Language.mem_add, ih, matches'_char,
      List.exists_mem_cons_iff]
    rfl

theorem mem_digit_iff {w : List Char} : w ∈ digit.matches' ↔ ∃ c, c.isDigit = true ∧ w = [c] := by
  have hdigit (c : Char) : c ∈ ['0', '1', '2', '3', '4', '5', '6', '7', '8', '9'] ↔
      c.isDigit = true := by
    simp only [List.mem_cons, List.not_mem_nil, or_false, ← Char.toNat_inj, Char.reduceToNat,
      Char.isDigit_iff_toNat]
    omega
  rw [digit, mem_sum_char_iff]
  simp only [hdigit]

theorem mem_star_digit_iff {w : List Char} : w ∈ (star digit).matches' ↔ Digits w := by
  rw [matches'_star, Language.mem_kstar]
  constructor
  · rintro ⟨pieces, rfl, hpieces⟩ c hc
    obtain ⟨piece, hpiece, hc⟩ := List.mem_flatten.mp hc
    obtain ⟨c', hdigit, rfl⟩ := mem_digit_iff.mp (hpieces piece hpiece)
    rwa [List.mem_singleton.mp hc]
  · intro hw
    refine ⟨w.map fun c => [c], (List.flatMap_singleton' w).symm, fun piece hpiece => ?_⟩
    obtain ⟨c, hc, rfl⟩ := List.mem_map.mp hpiece
    exact mem_digit_iff.mpr ⟨c, hw c hc, rfl⟩

theorem mem_language_integer_iff {w : List Char} :
    w ∈ language integer ↔ Digits w ∧ w ≠ [] := by
  rw [language, expression, matches'_mul, Language.mem_mul]
  constructor
  · rintro ⟨v, hv, u, hu, rfl⟩
    obtain ⟨c, hc, rfl⟩ := mem_digit_iff.mp hv
    exact ⟨List.forall_mem_cons.mpr ⟨hc, mem_star_digit_iff.mp hu⟩, List.cons_ne_nil c u⟩
  · rintro ⟨hw, hne⟩
    obtain ⟨c, u, rfl⟩ := List.exists_cons_of_ne_nil hne
    obtain ⟨hc, hu⟩ := List.forall_mem_cons.mp hw
    exact ⟨[c], mem_digit_iff.mpr ⟨c, hc, rfl⟩, u, mem_star_digit_iff.mpr hu, rfl⟩

theorem mem_language_dice_iff {w : List Char} :
    w ∈ language dice ↔
      ∃ count sides, (Lexeme.dice count sides).Formed ∧ (Lexeme.dice count sides).text = w := by
  have hsides {v : List Char} : v ∈ (digit * star digit).matches' ↔ Digits v ∧ v ≠ [] :=
    mem_language_integer_iff
  rw [language, expression, matches'_mul, matches'_mul, Language.mem_mul]
  constructor
  · rintro ⟨count, hcount, v, hv, rfl⟩
    obtain ⟨c, hc, sides, hs, rfl⟩ := Language.mem_mul.mp hv
    obtain rfl : c = ['d'] := hc
    exact ⟨count, sides, ⟨mem_star_digit_iff.mp hcount, hsides.mp hs⟩, rfl⟩
  · rintro ⟨count, sides, ⟨hcount, hs⟩, rfl⟩
    exact ⟨count, mem_star_digit_iff.mpr hcount, 'd' :: sides,
      Language.mem_mul.mpr ⟨['d'], rfl, sides, hsides.mpr hs, rfl⟩, rfl⟩

end Pattern

/-- The pattern of a lexeme; a stray character has none. -/
def pattern? : Lexeme → Option Pattern
  | dice _ _ => some .dice
  | integer _ => some .integer
  | sign .plus => some .plus
  | sign .minus => some .minus
  | stray _ => none

theorem Formed.text_mem_language {l : Lexeme} {p : Pattern} (hl : l.Formed)
    (hp : l.pattern? = some p) : l.text ∈ p.language := by
  cases l with
  | dice count sides =>
    cases hp
    exact Pattern.mem_language_dice_iff.mpr ⟨count, sides, hl, rfl⟩
  | integer digits =>
    cases hp
    exact Pattern.mem_language_integer_iff.mpr hl
  | sign s => cases s <;> cases hp <;> rfl
  | stray c => cases hp

/-! ### The longest match -/

/-- What the patterns find at the start of the text `w`: a lexeme of a pattern that matches a prefix
of `w`, when no pattern matches a longer one, and a stray character when none matches at all. -/
inductive LongestMatch (w : List Char) : Lexeme → Prop
  | matched {l : Lexeme} {p : Pattern} (hp : l.pattern? = some p) (hstart : l.text <+: w)
      (hmem : l.text ∈ p.language)
      (hmax : ∀ q v, v <+: w → v ∈ Pattern.language q → v.length ≤ l.text.length) :
      LongestMatch w l
  | stray {c : Char} {v : List Char} (hw : w = c :: v)
      (hnone : ∀ q u, u <+: w → u ∉ Pattern.language q) : LongestMatch w (stray c)

variable {c : Char} {v w rest : List Char}

/-- A dice literal at the start of a text takes all the digits that follow its letter. -/
theorem first_of_dice_append {count sides : List Char} (hl : (dice count sides).Formed)
    (hw : (dice count sides).text ++ rest = c :: w) :
    first c w = (dice count (sides ++ digits rest), afterDigits rest) := by
  have hlong : (dice count (sides ++ digits rest)).Formed := by
    refine ⟨hl.1, fun c hc => ?_, List.append_ne_nil_of_left_ne_nil hl.2.2 _⟩
    exact (List.mem_append.mp hc).elim (hl.2.1 c) (digits_digits rest c)
  refine first_of_dice? ?_
  rw [← hw, ← dice?_text_append hlong (digits_afterDigits rest)]
  simp only [text, List.append_assoc, List.cons_append, digits_append_afterDigits]

/-- Where a row of digits starts, the first lexeme takes all of it, and it is a literal. -/
theorem digits_length_le_first (h : digits (c :: w) ≠ []) :
    (digits (c :: w)).length ≤ (first c w).1.text.length ∧ (first c w).1.pattern? ≠ none := by
  rw [first]
  split
  · next r hdice =>
    rw [dice?] at hdice
    split at hdice
    · split at hdice
      · cases hdice
      · cases hdice
        refine ⟨?_, Option.some_ne_none _⟩
        rw [text, List.length_append]
        exact Nat.le_add_right _ _
    · cases hdice
  · rw [integer?, if_neg h]
    exact ⟨le_rfl, Option.some_ne_none _⟩

/-- No prefix that a pattern matches is longer than the first lexeme. -/
theorem length_le_first {p : Pattern} (hv : v ∈ p.language) (hw : v ++ rest = c :: w) :
    v.length ≤ (first c w).1.text.length ∧ (first c w).1.pattern? ≠ none := by
  have hsign (s : Sign) (hs : v = [s.char]) :
      v.length ≤ (first c w).1.text.length ∧ (first c w).1.pattern? ≠ none := by
    subst hs
    obtain ⟨rfl, rfl⟩ := List.cons.inj hw
    rw [first_sign]
    exact ⟨le_rfl, by cases s <;> exact Option.some_ne_none _⟩
  cases p with
  | dice =>
    obtain ⟨count, sides, hl, rfl⟩ := Pattern.mem_language_dice_iff.mp hv
    rw [first_of_dice_append hl hw]
    refine ⟨?_, Option.some_ne_none _⟩
    simp only [text, List.length_append, List.length_cons]
    omega
  | integer =>
    obtain ⟨hdigits, hne⟩ := Pattern.mem_language_integer_iff.mp hv
    have hstart : v <+: digits (c :: w) := by
      rw [← hw, digits, List.takeWhile_append_of_pos hdigits]
      exact List.prefix_append _ _
    obtain ⟨hle, hpattern⟩ := digits_length_le_first (hstart.ne_nil hne)
    exact ⟨hstart.length_le.trans hle, hpattern⟩
  | plus => exact hsign .plus hv
  | minus => exact hsign .minus hv

/-- The first lexeme of a text is what the patterns find at its start. -/
theorem longestMatch_first (c : Char) (w : List Char) : LongestMatch (c :: w) (first c w).1 := by
  have hstart : (first c w).1.text <+: c :: w := ⟨_, (text_append_first c w).1⟩
  have hmax (q : Pattern) (v : List Char) (hvw : v <+: c :: w) (hv : v ∈ q.language) :
      v.length ≤ (first c w).1.text.length ∧ (first c w).1.pattern? ≠ none := by
    obtain ⟨rest, hrest⟩ := hvw
    exact length_le_first hv hrest
  cases hp : (first c w).1.pattern? with
  | some p =>
    exact .matched hp hstart ((formed_first c w).1.text_mem_language hp)
      fun q v hvw hv => (hmax q v hvw hv).1
  | none =>
    have hnone (q : Pattern) (v : List Char) (hvw : v <+: c :: w) : v ∉ q.language :=
      fun hv => (hmax q v hvw hv).2 hp
    cases hfirst : (first c w).1 with
    | stray c' =>
      rw [hfirst] at hstart
      obtain ⟨u, hu⟩ := hstart
      exact .stray hu.symm hnone
    | dice count sides => rw [hfirst] at hp; cases hp
    | integer digits => rw [hfirst] at hp; cases hp
    | sign s => rw [hfirst] at hp; cases s <;> cases hp

theorem Greedy.of_append_right {front back : List Lexeme} (h : Greedy (front ++ back)) :
    Greedy back := by
  induction front with
  | nil => exact h
  | cons l front ih => exact ih h.2.2

/-- Every lexeme of a text is the longest match where it starts. -/
theorem longestMatch_of_cut {front back : List Lexeme} {l : Lexeme}
    (h : cut w = front ++ l :: back) : LongestMatch (l.text ++ back.flatMap text) l := by
  have hgreedy : Greedy (l :: back) := (cut_eq_iff.mp h).2.of_append_right
  have hcut : cut (l.text ++ back.flatMap text) = l :: back := cut_flatMap_text hgreedy
  obtain ⟨c, v, hcv⟩ := List.exists_cons_of_ne_nil
    (List.append_ne_nil_of_left_ne_nil hgreedy.1.text_ne_nil (back.flatMap text))
  rw [hcv, cut_cons, List.cons.injEq] at hcut
  rw [hcv, ← hcut.1]
  exact longestMatch_first c v

end DiceSum.Lexeme
