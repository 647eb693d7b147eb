import DiceSum.Proofs.FirstFault
import DiceSum.Proofs.LongestMatch

/-!
# Lexemes tile their text

Laid end to end, the lexemes of a text take up all of its bytes: each has a span that starts where
the one before it stops, at a character boundary, and the bytes in it are those of the lexeme. A
rejection that shows a lexeme shows one of these spans. What a lexeme means is read off its digits,
by their decimal value.

## Main definitions

* `DiceSum.Lexeme.Span`, `DiceSum.Lexeme.spansFrom` — the bytes that lexemes take.
* `DiceSum.Lexeme.Tiles` — spans that make up a text.
* `DiceSum.Text.decimal` — the sum of the digits, each times its power of ten.

## Main results

* `DiceSum.Lexeme.tiles_spansFrom`, `DiceSum.Lexeme.forall₂_extract_spansFrom` — the spans of the
  lexemes of a text.
* `DiceSum.Terms.span_mem_of_read` — the spans of rejections.
* `DiceSum.Lexeme.token_of_mem_integer`, `DiceSum.Lexeme.token_of_dice_text` — the meaning of
  literals.
* `DiceSum.Lexeme.cut_tiles` — the cut of a text.
-/

namespace DiceSum

/-! ### Decimal values -/

namespace Text

/-- The decimal value of a row of digits: the sum of the digits, each times its power of ten. -/
def decimal (w : List Char) : Nat :=
  Nat.ofDigits 10 ((w.map fun c => c.toNat - '0'.toNat).reverse)

theorem value_eq_decimal (w : List Char) : value w = decimal w := by
  induction w using List.reverseRecOn with
  | nil => rfl
  | append_singleton w c ih =>
    rw [decimal, List.map_append, List.reverse_append, List.map_singleton, List.reverse_singleton,
      List.singleton_append, Nat.ofDigits_cons, ← decimal, ← ih, value, Nat.ofDigitChars_append,
      Nat.ofDigitChars_cons, Nat.ofDigitChars_nil, ← value]
    exact Nat.add_comm _ _

/-- Leading zeros do not matter. -/
theorem decimal_replicate_zero_append (n : Nat) (w : List Char) :
    decimal (List.replicate n '0' ++ w) = decimal w := by
  rw [← value_eq_decimal, ← value_eq_decimal, value, Nat.ofDigitChars_append,
    Nat.ofDigitChars_replicate_zero, Nat.mul_zero, value]

end Text

namespace Lexeme

open Text (Digits decimal)

/-! ### Meaning -/

/-- A lexeme that can stand on its own is known by its text. -/
theorem Formed.eq_of_text_eq {l l' : Lexeme} (hl : l.Formed) (hl' : l'.Formed)
    (h : l.text = l'.text) : l = l' := by
  have hends (l : Lexeme) : l.EndsBefore [] := by cases l <;> simp [EndsBefore]
  have hcut := cut_text_append hl (hends l)
  rw [h, cut_text_append hl' (hends l'), List.cons.injEq] at hcut
  exact hcut.1.symm

/-- A lexeme that the integer pattern matches means its decimal value, if that is in range. -/
theorem token_of_mem_integer {l : Lexeme} (hl : l.Formed) (h : l.text ∈ Pattern.integer.language) :
    l.token =
      if decimal l.text < 9223372036854775808 then .integer (decimal l.text) else .unreadable := by
  have hl : l = integer l.text := hl.eq_of_text_eq (Pattern.mem_language_integer_iff.mp h) rfl
  rw [congrArg token hl, ← Text.value_eq_decimal]
  by_cases hvalue : Text.value l.text ≤ 9223372036854775807
  · rw [token_integer hvalue, if_pos (by omega)]
  · rw [token_integer_eq_unreadable_iff.mpr (by omega), if_neg (by omega)]

/-- The number of dice that the digits in front of the letter `d` stand for. -/
def countValue (count : List Char) : Nat := if count = [] then 1 else decimal count

theorem ofCountDigits?_eq (count : List Char) :
    Quantity.ofCountDigits? count = Quantity.ofNat? (countValue count) := by
  rw [Quantity.ofCountDigits?, countValue]
  split
  · rfl
  · rw [Quantity.ofDigits?, Text.value_eq_decimal]

/-- A lexeme that is a dice literal means its numbers of dice and of sides, if both are in range. -/
theorem token_of_dice_text {l : Lexeme} {count sides : List Char} (hl : l.Formed)
    (hcount : Digits count) (hsides : sides ∈ Pattern.integer.language)
    (h : l.text = count ++ 'd' :: sides) :
    (∀ q r, l.token = .dice q r ↔ q.toNat = countValue count ∧ r.toNat = decimal sides) ∧
    (l.token = .unreadable ↔
      ¬ (Quantity.InRange (countValue count) ∧ Quantity.InRange (decimal sides))) := by
  obtain rfl : l = dice count sides :=
    hl.eq_of_text_eq ⟨hcount, Pattern.mem_language_integer_iff.mp hsides⟩ h
  simp only [← Quantity.ofNat?_eq_some, not_and_or, ← Quantity.ofNat?_eq_none_iff_not_inRange,
    token, ofCountDigits?_eq, Quantity.ofDigits?, Text.value_eq_decimal]
  cases Quantity.ofNat? (countValue count) <;> cases Quantity.ofNat? (decimal sides) <;> simp

/-! ### Spans -/

/-- A row of bytes in a text: from `start` up to, but not including, `stop`. -/
structure Span where
  start : Nat
  stop : Nat
  deriving DecidableEq

/-- The bytes that a row of lexemes takes when the first of them starts at `start`. -/
def spansFrom (start : Nat) : List Lexeme → List Span
  | [] => []
  | l :: ls => ⟨start, start + l.size⟩ :: spansFrom (start + l.size) ls

/-- Spans that make up a text: none is empty, each starts where the one before it stops, the first
at zero, the last stops at the end of the text, and all bounds are character boundaries. -/
structure Tiles (s : String) (spans : List Span) : Prop where
  start_lt_stop : ∀ x ∈ spans, x.start < x.stop
  contiguous : spans.IsChain fun x y => x.stop = y.start
  start_head : ∀ x ∈ spans.head?, x.start = 0
  stop_getLast : spans.getLast?.elim 0 Span.stop = s.utf8ByteSize
  isValid : ∀ x ∈ spans, (⟨x.start⟩ : String.Pos.Raw).IsValid s ∧
    (⟨x.stop⟩ : String.Pos.Raw).IsValid s

/-- The spans of lexemes behind the text `pre`: their bounds are character boundaries of the whole
text, and each holds the bytes of its lexeme. -/
theorem forall₂_extract_spansFrom (pre : List Char) (ls : List Lexeme) :
    List.Forall₂ (fun x l =>
      ((⟨x.start⟩ : String.Pos.Raw).IsValid (String.ofList (pre ++ ls.flatMap text)) ∧
        (⟨x.stop⟩ : String.Pos.Raw).IsValid (String.ofList (pre ++ ls.flatMap text))) ∧
      (String.ofList (pre ++ ls.flatMap text)).toByteArray.extract x.start x.stop =
        (String.ofList l.text).toByteArray) (spansFrom (utf8Size pre) ls) ls := by
  induction ls generalizing pre with
  | nil => exact .nil
  | cons l ls ih =>
    have hstop : utf8Size pre + l.size = utf8Size (pre ++ l.text) := (utf8Size_append _ _).symm
    have hmid := isValid_and_extract pre l.text (ls.flatMap text)
    have hend := isValid_and_extract (pre ++ l.text) [] (ls.flatMap text)
    have hrest := ih (pre ++ l.text)
    rw [utf8ByteSize_ofList, ← size] at hmid
    rw [List.append_nil, List.append_assoc] at hend
    rw [List.append_assoc] at hmid hrest
    rw [spansFrom, List.flatMap_cons, hstop]
    refine .cons ⟨⟨hmid.1, hend.1⟩, ?_⟩ hrest
    rw [← hstop]
    exact hmid.2

theorem forall₂_extract_spansFrom_cut (s : String) :
    (∀ x ∈ spansFrom 0 (cut s.toList),
      (⟨x.start⟩ : String.Pos.Raw).IsValid s ∧ (⟨x.stop⟩ : String.Pos.Raw).IsValid s) ∧
    List.Forall₂
      (fun x l => s.toByteArray.extract x.start x.stop = (String.ofList l.text).toByteArray)
      (spansFrom 0 (cut s.toList)) (cut s.toList) := by
  have hspans := forall₂_extract_spansFrom [] (cut s.toList)
  rwa [List.nil_append, flatMap_text_cut, String.ofList_toList, utf8Size_nil,
    List.forall₂_and_left] at hspans

theorem contiguous_spansFrom (start : Nat) (ls : List Lexeme) :
    (spansFrom start ls).IsChain fun x y => x.stop = y.start := by
  induction ls generalizing start with
  | nil => exact .nil
  | cons l ls ih =>
    rw [spansFrom, List.isChain_cons]
    refine ⟨fun y hy => ?_, ih _⟩
    cases ls with
    | nil => cases hy
    | cons l' ls => cases hy; rfl

/-- The last span stops where the text ends. -/
theorem elim_getLast?_spansFrom (start : Nat) (ls : List Lexeme) :
    (spansFrom start ls).getLast?.elim start Span.stop = start + utf8Size (ls.flatMap text) := by
  induction ls generalizing start with
  | nil => rfl
  | cons l ls ih =>
    have hlast := ih (start + l.size)
    rw [Nat.add_assoc, size, ← utf8Size_append, ← size] at hlast
    rw [spansFrom, List.flatMap_cons, ← hlast, List.getLast?_cons, Option.elim_some]
    cases (spansFrom (start + l.size) ls).getLast? <;> rfl

theorem utf8Size_pos {w : List Char} (h : w ≠ []) : 0 < utf8Size w := by
  obtain ⟨c, v, rfl⟩ := List.exists_cons_of_ne_nil h
  have hc := c.utf8Size_pos
  rw [utf8Size_cons]
  omega

theorem start_lt_stop_of_mem {start : Nat} {ls : List Lexeme} (h : ∀ l ∈ ls, l.text ≠ []) :
    ∀ x ∈ spansFrom start ls, x.start < x.stop := by
  induction ls generalizing start with
  | nil => exact fun x hx => absurd hx List.not_mem_nil
  | cons l ls ih =>
    obtain ⟨hl, hls⟩ := List.forall_mem_cons.mp h
    exact List.forall_mem_cons.mpr ⟨Nat.lt_add_of_pos_right (utf8Size_pos hl), ih hls⟩

/-- The spans of the lexemes of a text make it up. -/
theorem tiles_spansFrom (s : String) : Tiles s (spansFrom 0 (cut s.toList)) where
  start_lt_stop := start_lt_stop_of_mem fun _ => text_ne_nil_of_mem_cut
  contiguous := contiguous_spansFrom 0 _
  start_head x hx := by
    cases hcut : cut s.toList with
    | nil => rw [hcut] at hx; cases hx
    | cons l ls => rw [hcut] at hx; cases hx; rfl
  stop_getLast := by
    rw [elim_getLast?_spansFrom, flatMap_text_cut, Nat.zero_add, ← utf8ByteSize_ofList,
      String.ofList_toList]
  isValid := (forall₂_extract_spansFrom_cut s).1

end Lexeme

/-! ### Spans of rejections -/

/-- A rejection that shows a lexeme shows its span. -/
theorem Terms.span_mem_of_read {position : Nat} {pending : Option Sign} {modifier : Int}
    {ls : List Lexeme} {r : Rejection} (h : read position pending modifier ls = .error r)
    (hslice : r.slice ≠ "") :
    ⟨r.position, r.position + r.slice.utf8ByteSize⟩ ∈ Lexeme.spansFrom position ls := by
  have hreject (cause : Rejection.Cause) (position : Nat) (l : Lexeme) (ls : List Lexeme) :
      ⟨(reject cause position l).position, (reject cause position l).position +
        (reject cause position l).slice.utf8ByteSize⟩ ∈ Lexeme.spansFrom position (l :: ls) := by
    rw [reject, utf8ByteSize_ofList, Lexeme.spansFrom, Lexeme.size]
    exact List.mem_cons_self
  induction ls generalizing position pending modifier with
  | nil =>
    cases pending with
    | none => cases h
    | some s =>
      cases h
      exact absurd rfl hslice
  | cons l ls ih =>
    rw [read] at h
    split at h
    · cases hread : read (position + l.size) none modifier ls with
      | ok t =>
        rw [hread] at h
        cases h
      | error r' =>
        rw [hread] at h
        cases h
        exact List.mem_cons_of_mem _ (ih hread)
    · split at h
      · exact List.mem_cons_of_mem _ (ih h)
      · cases h
        exact hreject _ _ _ _
    · split at h
      · exact List.mem_cons_of_mem _ (ih h)
      · cases h
        exact hreject _ _ _ _
    · cases h
      exact hreject _ _ _ _

namespace Lexeme

open Text (Digits decimal)

/-- The meaning of a lexeme, by its text: of a stray character and of a literal out of range none, of
a sign the sign, of an integer literal its decimal value, of a dice literal its numbers of dice and
of sides. -/
structure ReadExactly (l : Lexeme) : Prop where
  stray : ∀ c, l = stray c → l.token = .unreadable
  sign : ∀ s : Sign, l.text = [s.char] → l.token = .sign s
  integer : l.text ∈ Pattern.integer.language → l.token =
    if decimal l.text < 9223372036854775808 then .integer (decimal l.text) else .unreadable
  dice : ∀ count sides, Digits count → sides ∈ Pattern.integer.language →
    l.text = count ++ 'd' :: sides →
    (∀ q r, l.token = .dice q r ↔ q.toNat = countValue count ∧ r.toNat = decimal sides) ∧
    (l.token = .unreadable ↔
      ¬ (Quantity.InRange (countValue count) ∧ Quantity.InRange (decimal sides)))

theorem Formed.readExactly {l : Lexeme} (hl : l.Formed) : ReadExactly l where
  stray c hc := by rw [hc, token]
  sign s hs := by
    have hsign : (Lexeme.sign s).Formed := trivial
    rw [hl.eq_of_text_eq hsign hs, token]
  integer := token_of_mem_integer hl
  dice count sides := token_of_dice_text hl

/-- **The cut of a text tiles it with longest matches.** The lexemes of a text make it up: their
spans are not empty, follow each other from zero to the end of the text, on character boundaries,
and hold their bytes; a rejection that shows a lexeme shows its span. Each lexeme is the longest
prefix that a pattern matches in what is left of the text, and one stray character where none
matches, and it means what its text says, however many leading zeros there are. -/
theorem cut_tiles (s : String) :
    (cut s.toList).flatMap text = s.toList ∧
    Tiles s (spansFrom 0 (cut s.toList)) ∧
    List.Forall₂
      (fun x l => s.toByteArray.extract x.start x.stop = (String.ofList l.text).toByteArray)
      (spansFrom 0 (cut s.toList)) (cut s.toList) ∧
    (∀ r, Terms.read 0 none 0 (cut s.toList) = .error r → r.slice ≠ "" →
      ⟨r.position, r.position + r.slice.utf8ByteSize⟩ ∈ spansFrom 0 (cut s.toList)) ∧
    (∀ front l back, cut s.toList = front ++ l :: back →
      LongestMatch (l.text ++ back.flatMap text) l) ∧
    (∀ l ∈ cut s.toList, ReadExactly l) ∧
    ∀ n w, decimal (List.replicate n '0' ++ w) = decimal w :=
  ⟨flatMap_text_cut _, tiles_spansFrom s, (forall₂_extract_spansFrom_cut s).2,
    fun _ hr hslice => Terms.span_mem_of_read hr hslice, fun _ _ _ h => longestMatch_of_cut h,
    fun l hl => ((greedy_cut s.toList).formed l hl).readExactly,
    Text.decimal_replicate_zero_append⟩

/-- The letter `d` does not make a dice literal of the digits in front of it when no digit follows,
and the last literal is out of range. -/
theorem cut_tiles_loneLetter :
    cut "12dé0d6".toList = [.integer ['1', '2'], .stray 'd', .stray 'é', .dice ['0'] ['6']] ∧
    LongestMatch "12dé0d6".toList (.integer ['1', '2']) ∧
    Tiles "12dé0d6" [⟨0, 2⟩, ⟨2, 3⟩, ⟨3, 5⟩, ⟨5, 8⟩] ∧
    (Lexeme.integer ['1', '2']).token = .integer 12 ∧
    (Lexeme.dice ['0'] ['6']).token = .unreadable := by
  have hcut : cut "12dé0d6".toList =
      [.integer ['1', '2'], .stray 'd', .stray 'é', .dice ['0'] ['6']] := by cbv
  have hspans : spansFrom 0 [.integer ['1', '2'], .stray 'd', .stray 'é', .dice ['0'] ['6']] =
      [⟨0, 2⟩, ⟨2, 3⟩, ⟨3, 5⟩, ⟨5, 8⟩] := by decide
  obtain ⟨-, htiles, -, -, hlongest, hread, -⟩ := cut_tiles "12dé0d6"
  rw [hcut, hspans] at htiles
  rw [hcut] at hread
  have hdigits : ['1', '2'] ∈ Pattern.integer.language :=
    Pattern.mem_language_integer_iff.mpr ⟨by simp [Digits], List.cons_ne_nil _ _⟩
  have hsides : ['6'] ∈ Pattern.integer.language :=
    Pattern.mem_language_integer_iff.mpr ⟨by simp [Digits], List.cons_ne_nil _ _⟩
  have hzero : countValue ['0'] = 0 := by decide
  have hinteger := (hread (.integer ['1', '2']) (by simp)).integer hdigits
  have hdice := (hread (.dice ['0'] ['6']) (by simp)).dice ['0'] ['6'] (by simp [Digits]) hsides rfl
  refine ⟨hcut, hlongest [] _ _ hcut, htiles, hinteger, hdice.2.mpr fun h => ?_⟩
  rw [hzero] at h
  exact absurd h.1.1 (by decide)

end Lexeme

end DiceSum
