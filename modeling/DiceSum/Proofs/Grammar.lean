import DiceSum.Proofs.GreedyCut
import DiceSum.Proofs.Readable
import DiceSum.Proofs.Tally

/-!
# The grammar of dice notations

A notation is a row of items, each a literal with an optional sign. All items but the first need a
sign, except that a dice literal without a number of dice can stand directly behind another dice
literal. This describes the same rows as the greedy cut into lexemes does: where it holds, no
literal is prolonged by the text behind it, and a row of lexemes that can be read is cut at these
places only.

## Main definitions

* `DiceSum.Numeral`, `DiceSum.Literal`, `DiceSum.Item` — the parts of a notation.
* `DiceSum.Item.Follows`, `DiceSum.Spells` — rows of items, and the text that they spell.
* `DiceSum.Item.group?`, `DiceSum.Item.flat?` — the meaning of an item.
* `DiceSum.Acceptable` — the conditions on the numbers of a notation.

## Main results

* `DiceSum.Spells.cut_eq`, `DiceSum.exists_items_of_clean` — items as lexemes, and back.
* `DiceSum.Expression.parse_iff_spells` — the accepted notations, and what they mean.
-/

namespace DiceSum

open Word (Fits RunningFits)

/-! ### Items -/

/-- A non-empty row of decimal digits. -/
@[ext] structure Numeral where
  chars : List Char
  digits : Text.Digits chars
  ne_nil : chars ≠ []

/-- The value of a numeral; leading zeros do not matter. -/
def Numeral.value (n : Numeral) : Nat := Text.value n.chars

/-- The number of dice that a numeral denotes, if it is in range; one if there is no numeral. -/
def Quantity.ofCount? (count : Option Numeral) : Option Quantity :=
  count.elim (some Quantity.one) fun n => Quantity.ofNat? n.value

/-- A dice literal, perhaps without a number of dice, or an integer literal. -/
inductive Literal where
  | dice (count : Option Numeral) (sides : Numeral)
  | flat (value : Numeral)

/-- The digits in front of the letter `d`. -/
def Literal.countChars (count : Option Numeral) : List Char := count.elim [] Numeral.chars

namespace Literal

/-- The written form of a literal. -/
def chars : Literal → List Char
  | dice count sides => countChars count ++ 'd' :: sides.chars
  | flat value => value.chars

/-- A literal with numbers in range. -/
def InRange : Literal → Prop
  | dice count sides => (∀ n ∈ count, Quantity.InRange n.value) ∧ Quantity.InRange sides.value
  | flat value => value.value ≤ 9223372036854775807

end Literal

/-- A literal with an optional sign. -/
structure Item where
  sign : Option Sign
  literal : Literal

namespace Item

/-- The written form of an item. -/
def chars (i : Item) : List Char := (i.sign.map Sign.char).toList ++ i.literal.chars

/-- The items that can stand directly behind an item. -/
inductive Follows : Item → Item → Prop
  | signed (i : Item) (s : Sign) (l : Literal) : Follows i ⟨some s, l⟩
  | dice (sign : Option Sign) (count : Option Numeral) (sides sides' : Numeral) :
      Follows ⟨sign, .dice count sides⟩ ⟨none, .dice none sides'⟩

/-- The sign of an item, plus if none is written. -/
def signOrPlus (i : Item) : Sign := i.sign.getD .plus

/-- The group that a dice literal in range denotes: one die if no number is written. -/
def group? (i : Item) : Option Group :=
  match i.literal with
  | .dice count sides => do
    let count ← Quantity.ofCount? count
    let sides ← Quantity.ofNat? sides.value
    return ⟨count, ⟨sides, i.signOrPlus⟩⟩
  | .flat _ => none

/-- The signed integer that an integer literal denotes. -/
def flat? (i : Item) : Option Int :=
  match i.literal with
  | .dice _ _ => none
  | .flat value => some (i.signOrPlus.apply value.value)

end Item

/-- The text `w` is a row of at least one item, each of which can stand behind the one before. -/
structure Spells (items : List Item) (w : List Char) : Prop where
  ne_nil : items ≠ []
  chain : items.IsChain Item.Follows
  text : items.flatMap Item.chars = w

/-- The conditions on the numbers of a row of items: all literals are in range, there is a dice
literal, the sums of the first integers fit, and so do the totals of the dice. -/
structure Acceptable (items : List Item) : Prop where
  inRange : ∀ i ∈ items, i.literal.InRange
  dice : ∃ i ∈ items, ∃ count sides, i.literal = .dice count sides
  flats : RunningFits 0 (items.filterMap Item.flat?)
  totals : TotalsFit (items.filterMap Item.group?) (items.filterMap Item.flat?).sum

/-! ### Items as lexemes -/

namespace Literal

theorem digits_countChars (count : Option Numeral) : Text.Digits (countChars count) := by
  cases count with
  | none => exact fun _ h => (List.not_mem_nil h).elim
  | some n => exact n.digits

theorem countChars_injective : Function.Injective countChars := by
  rintro (_ | n) (_ | n') h
  · rfl
  · exact absurd h.symm n'.ne_nil
  · exact absurd h n.ne_nil
  · exact congrArg some (Numeral.ext h)

/-- The lexeme that a literal is. -/
def lexeme : Literal → Lexeme
  | dice count sides => .dice (countChars count) sides.chars
  | flat value => .integer value.chars

@[simp] theorem text_lexeme (l : Literal) : l.lexeme.text = l.chars := by
  cases l <;> rfl

theorem formed_lexeme (l : Literal) : l.lexeme.Formed := by
  cases l with
  | dice count sides => exact ⟨digits_countChars count, sides.digits, sides.ne_nil⟩
  | flat value => exact ⟨value.digits, value.ne_nil⟩

theorem greedy_lexeme_cons {l : Literal} {ls : List Lexeme} :
    Lexeme.Greedy (l.lexeme :: ls) ↔
      l.lexeme.EndsBefore (ls.flatMap Lexeme.text) ∧ Lexeme.Greedy ls :=
  and_iff_right l.formed_lexeme

theorem lexeme_ne_sign (l : Literal) (s : Sign) : l.lexeme ≠ .sign s := by
  cases l <;> exact Lexeme.noConfusion

theorem lexeme_injective : Function.Injective lexeme := by
  rintro (⟨count, sides⟩ | value) (⟨count', sides'⟩ | value') h
  · obtain ⟨hcount, hsides⟩ := Lexeme.dice.inj h
    rw [countChars_injective hcount, Numeral.ext hsides]
  · cases h
  · cases h
  · rw [Numeral.ext (Lexeme.integer.inj h)]

/-- A lexeme that can stand on its own is a literal, a sign or a stray character. -/
theorem exists_literal {l : Lexeme} (h : l.Formed) :
    (∃ l' : Literal, l = l'.lexeme) ∨ (∃ s, l = .sign s) ∨ ∃ c, l = .stray c := by
  cases l with
  | dice count sides =>
    obtain ⟨hcount, hsides, hne⟩ := h
    by_cases hnil : count = []
    · subst hnil
      exact Or.inl ⟨.dice none ⟨sides, hsides, hne⟩, rfl⟩
    · exact Or.inl ⟨.dice (some ⟨count, hcount, hnil⟩) ⟨sides, hsides, hne⟩, rfl⟩
  | integer digits => exact Or.inl ⟨.flat ⟨digits, h.1, h.2⟩, rfl⟩
  | sign s => exact Or.inr (Or.inl ⟨s, rfl⟩)
  | stray c => exact Or.inr (Or.inr ⟨c, rfl⟩)

end Literal

namespace Item

/-- The lexemes of an item: its sign, if there is one, and its literal. -/
def lexemes (i : Item) : List Lexeme := (i.sign.map Lexeme.sign).toList ++ [i.literal.lexeme]

@[simp] theorem flatMap_text_lexemes (i : Item) : i.lexemes.flatMap Lexeme.text = i.chars := by
  rw [lexemes, chars]
  cases i.sign with
  | none => simp
  | some s =>
    rw [Option.map_some, Option.toList_some, List.singleton_append, List.flatMap_cons,
      List.flatMap_singleton, Literal.text_lexeme]
    rfl

theorem flatMap_text_flatMap_lexemes (items : List Item) :
    (items.flatMap lexemes).flatMap Lexeme.text = items.flatMap chars := by
  rw [List.flatMap_assoc]
  exact List.flatMap_congr fun i _ => flatMap_text_lexemes i

theorem flatMap_lexemes_injective {items items' : List Item}
    (h : items.flatMap lexemes = items'.flatMap lexemes) : items = items' := by
  induction items generalizing items' with
  | nil =>
    cases items' with
    | nil => rfl
    | cons i' items' => simp [lexemes] at h
  | cons i items ih =>
    cases items' with
    | nil => simp [lexemes] at h
    | cons i' items' =>
      obtain ⟨_ | s, l⟩ := i <;> obtain ⟨_ | s', l'⟩ := i' <;>
        simp only [lexemes, List.flatMap_cons, Option.map_none, Option.map_some,
          Option.toList_none, Option.toList_some, List.nil_append, List.cons_append,
          List.cons.injEq, Lexeme.sign.injEq] at h
      · rw [Literal.lexeme_injective h.1, ih h.2]
      · exact absurd h.1 (l.lexeme_ne_sign s')
      · exact absurd h.1.symm (l'.lexeme_ne_sign s)
      · rw [h.1, Literal.lexeme_injective h.2.1, ih h.2.2]

end Item

/-! ### Rows of items are greedy -/

theorem Numeral.digits_chars_append_ne_nil (n : Numeral) (w : List Char) :
    Lexeme.digits (n.chars ++ w) ≠ [] := by
  obtain ⟨c, v, hcv⟩ := List.exists_cons_of_ne_nil n.ne_nil
  have hc : c.isDigit = true := n.digits c (hcv ▸ List.mem_cons_self)
  rw [hcv, List.cons_append, Lexeme.digits, List.takeWhile_cons_of_pos hc]
  exact List.cons_ne_nil _ _

namespace Literal

theorem digits_eq_nil_of_endsBefore {l : Literal} {w : List Char} (h : l.lexeme.EndsBefore w) :
    Lexeme.digits w = [] := by
  cases l with
  | dice count sides => exact h
  | flat value => exact h.1

theorem endsBefore_nil (l : Literal) : l.lexeme.EndsBefore [] := by
  cases l with
  | dice count sides => exact Lexeme.digits_nil
  | flat value => exact ⟨Lexeme.digits_nil, fun v hv => by cases hv⟩

theorem endsBefore_sign (l : Literal) (s : Sign) (w : List Char) :
    l.lexeme.EndsBefore (s.char :: w) := by
  have hdigits : Lexeme.digits (s.char :: w) = [] :=
    Lexeme.digits_cons_of_not (Lexeme.isDigit_char s) w
  cases l with
  | dice count sides => exact hdigits
  | flat value => exact ⟨hdigits, fun v hv => absurd (List.cons.inj hv).1 (Lexeme.char_ne_d s)⟩

/-- The letter `d` with a digit behind it prolongs an integer literal, but no dice literal. -/
theorem endsBefore_d_iff (l : Literal) (n : Numeral) (w : List Char) :
    l.lexeme.EndsBefore ('d' :: (n.chars ++ w)) ↔ ∃ count sides, l = .dice count sides := by
  have hdigits : Lexeme.digits ('d' :: (n.chars ++ w)) = [] := Lexeme.digits_cons_of_not rfl _
  cases l with
  | dice count sides => exact iff_of_true hdigits ⟨_, _, rfl⟩
  | flat value =>
    refine iff_of_false (fun h => ?_) (by simp)
    exact n.digits_chars_append_ne_nil w (h.2 _ rfl)

end Literal

namespace Item

/-- The text of an item does not prolong the literal in front of it exactly when the item can
stand there. -/
theorem endsBefore_iff_follows (i j : Item) (w : List Char) :
    i.literal.lexeme.EndsBefore (j.chars ++ w) ↔ i.Follows j := by
  obtain ⟨_ | s, ⟨_ | count, sides⟩ | value⟩ := j
  · refine (i.literal.endsBefore_d_iff sides w).trans ⟨?_, ?_⟩
    · obtain ⟨sign, l⟩ := i
      rintro ⟨count, sides', rfl⟩
      exact .dice sign count sides' sides
    · rintro ⟨⟩
      exact ⟨_, _, rfl⟩
  · refine iff_of_false (fun h => ?_) (by rintro ⟨⟩)
    refine count.digits_chars_append_ne_nil ('d' :: sides.chars ++ w) ?_
    rw [← List.append_assoc]
    exact Literal.digits_eq_nil_of_endsBefore h
  · refine iff_of_false (fun h => ?_) (by rintro ⟨⟩)
    exact value.digits_chars_append_ne_nil w (Literal.digits_eq_nil_of_endsBefore h)
  all_goals exact iff_of_true (i.literal.endsBefore_sign s _) (.signed _ _ _)

/-- The lexemes of a row of items are greedy exactly when each item can stand where it does. -/
theorem greedy_lexemes_iff {items : List Item} :
    Lexeme.Greedy (items.flatMap lexemes) ↔ items.IsChain Follows := by
  induction items with
  | nil => exact iff_of_true trivial .nil
  | cons i items ih =>
    have hsplit : Lexeme.Greedy ((i :: items).flatMap lexemes) ↔
        i.literal.lexeme.EndsBefore (items.flatMap chars) ∧
          Lexeme.Greedy (items.flatMap lexemes) := by
      rw [← flatMap_text_flatMap_lexemes, ← Literal.greedy_lexeme_cons]
      obtain ⟨_ | s, l⟩ := i
      · rfl
      · exact Lexeme.greedy_sign_cons
    rw [hsplit, ih]
    cases items with
    | nil => simp [i.literal.endsBefore_nil]
    | cons j items =>
      rw [List.flatMap_cons, endsBefore_iff_follows, List.isChain_cons_cons]

end Item

/-- The greedy cut of a row of items is the row of their lexemes. -/
theorem Item.cut_flatMap_chars {items : List Item} (h : items.IsChain Item.Follows) :
    Lexeme.cut (items.flatMap chars) = items.flatMap lexemes := by
  rw [Lexeme.cut_eq_iff, flatMap_text_flatMap_lexemes, greedy_lexemes_iff]
  exact ⟨rfl, h⟩

theorem Spells.cut_eq {items : List Item} {w : List Char} (h : Spells items w) :
    Lexeme.cut w = items.flatMap Item.lexemes := by
  rw [← h.text]
  exact Item.cut_flatMap_chars h.chain

/-! ### Rows of items are read -/

namespace Quantity

theorem exists_ofCount?_iff {count : Option Numeral} :
    (∃ q, ofCount? count = some q) ↔ ∀ n ∈ count, InRange n.value := by
  cases count with
  | none => simp [ofCount?]
  | some n => simp [ofCount?, exists_ofNat?_iff]

theorem ofCountDigits?_countChars (count : Option Numeral) :
    ofCountDigits? (Literal.countChars count) = ofCount? count := by
  cases count with
  | none => rfl
  | some n => exact if_neg n.ne_nil

end Quantity

namespace Literal

variable {count : Option Numeral} {sides value : Numeral}

theorem inRange_dice_iff :
    (dice count sides).InRange ↔
      ∃ q r, Quantity.ofCount? count = some q ∧ Quantity.ofNat? sides.value = some r := by
  rw [InRange, ← Quantity.exists_ofCount?_iff, ← Quantity.exists_ofNat?_iff, exists_and_exists_comm]

theorem token_dice {q r : Quantity} (hq : Quantity.ofCount? count = some q)
    (hr : Quantity.ofNat? sides.value = some r) : (dice count sides).lexeme.token = .dice q r := by
  have hsides : Quantity.ofDigits? sides.chars = some r := hr
  rw [lexeme, Lexeme.token, Quantity.ofCountDigits?_countChars, hq, hsides]

theorem token_flat (h : (flat value).InRange) : (flat value).lexeme.token = .integer value.value :=
  Lexeme.token_integer h

theorem countChars_inRange_iff :
    (countChars count = [] ∨ Quantity.InRange (Text.value (countChars count))) ↔
      ∀ n ∈ count, Quantity.InRange n.value := by
  cases count with
  | none => simp [countChars]
  | some n => simp [countChars, n.ne_nil, Numeral.value]

/-- A literal is readable exactly when its numbers are in range. -/
theorem token_lexeme_eq_unreadable_iff {l : Literal} :
    l.lexeme.token = .unreadable ↔ ¬ l.InRange := by
  cases l with
  | dice count sides =>
    rw [lexeme, Lexeme.token_dice_eq_unreadable_iff, countChars_inRange_iff]
    rfl
  | flat value => exact Lexeme.token_integer_eq_unreadable_iff.trans Nat.not_le.symm

end Literal

namespace Tally

variable {t : Tally} {l : Literal}

/-- A literal in range adds its meaning to the tally and uses up the sign. -/
theorem step_lexeme (h : l.InRange) :
    t.step l.lexeme =
      ⟨t.groups ++ (Item.group? ⟨t.pending, l⟩).toList,
        t.flats ++ (Item.flat? ⟨t.pending, l⟩).toList, none⟩ := by
  rw [step]
  cases l with
  | dice count sides =>
    obtain ⟨q, r, hq, hr⟩ := Literal.inRange_dice_iff.mp h
    rw [Literal.token_dice hq hr]
    simp [Item.group?, Item.flat?, hq, hr, Item.signOrPlus, nextSign]
  | flat value =>
    rw [Literal.token_flat h]
    simp [Item.group?, Item.flat?, Item.signOrPlus, nextSign]

/-- A literal is no fault exactly when it is in range and its integer can be added. -/
theorem forall_not_fault_lexeme_iff :
    (∀ cause, ¬ t.Fault l.lexeme cause) ↔
      l.InRange ∧ ∀ x ∈ Item.flat? ⟨t.pending, l⟩, Fits (t.flats.sum + x) := by
  constructor
  · intro h
    have hrange : l.InRange := by
      by_contra hrange
      exact h _ (.unreadable (Literal.token_lexeme_eq_unreadable_iff.mpr hrange))
    refine ⟨hrange, fun x hx => ?_⟩
    cases l with
    | dice count sides => cases hx
    | flat value =>
      cases hx
      by_contra hfits
      exact h _ (.modifierOverflow (Literal.token_flat hrange) hfits)
  · rintro ⟨hrange, hfits⟩ cause hfault
    generalize hlexeme : l.lexeme = l' at hfault
    cases hfault with
    | unreadable hl =>
      rw [← hlexeme] at hl
      exact Literal.token_lexeme_eq_unreadable_iff.mp hl hrange
    | repeatedSign _ => exact l.lexeme_ne_sign _ hlexeme
    | @modifierOverflow _ x hl hx =>
      rw [← hlexeme] at hl
      cases l with
      | dice count sides =>
        obtain ⟨digits, hdigits, -⟩ := Lexeme.eq_integer_of_token hl
        cases hdigits
      | flat value =>
        rw [Literal.token_flat hrange] at hl
        cases hl
        exact hx (hfits _ rfl)

theorem forall_not_fault_sign_iff {s : Sign} :
    (∀ cause, ¬ t.Fault (.sign s) cause) ↔ t.pending = none := by
  constructor
  · intro h
    by_contra hpending
    obtain ⟨s', hs'⟩ := Option.ne_none_iff_exists'.mp hpending
    exact h _ (.repeatedSign hs')
  · rintro hpending cause (⟨⟨⟩⟩ | hs | ⟨⟨⟩, -⟩)
    rw [hpending] at hs
    cases hs

end Tally

variable {items : List Item}

theorem filterMap_singleton {α β : Type} (f : α → Option β) (a : α) :
    [a].filterMap f = (f a).toList := by
  rw [List.filterMap_cons]
  cases f a <;> rfl

theorem Tally.of_append_sign {ls : List Lexeme} (h : (Tally.of ls).pending = none)
    (p : Option Sign) :
    Tally.of (ls ++ (p.map Lexeme.sign).toList) =
      ⟨(Tally.of ls).groups, (Tally.of ls).flats, p⟩ := by
  cases p with
  | none => rw [Option.map_none, Option.toList_none, List.append_nil, ← h]
  | some s =>
    rw [Option.map_some, Option.toList_some, Tally.of_concat]
    rfl

theorem clean_append_sign {ls : List Lexeme} (h : (Tally.of ls).pending = none)
    (p : Option Sign) : Clean (ls ++ (p.map Lexeme.sign).toList) ↔ Clean ls := by
  cases p with
  | none => rw [Option.map_none, Option.toList_none, List.append_nil]
  | some s =>
    exact clean_concat.trans (and_iff_left (Tally.forall_not_fault_sign_iff.mpr h))

theorem Item.flatMap_lexemes_concat (items : List Item) (i : Item) :
    (items ++ [i]).flatMap lexemes =
      items.flatMap lexemes ++ (i.sign.map Lexeme.sign).toList ++ [i.literal.lexeme] := by
  rw [List.flatMap_append, List.flatMap_singleton, lexemes, List.append_assoc]

/-- What a row of items in range comes to. -/
theorem Tally.of_items (h : ∀ i ∈ items, i.literal.InRange) :
    Tally.of (items.flatMap Item.lexemes) =
      ⟨items.filterMap Item.group?, items.filterMap Item.flat?, none⟩ := by
  induction items using List.reverseRecOn with
  | nil => rfl
  | append_singleton items i ih =>
    rw [List.forall_mem_append, List.forall_mem_singleton] at h
    have htally := ih h.1
    rw [Item.flatMap_lexemes_concat, Tally.of_concat, Tally.of_append_sign (by rw [htally]),
      htally, Tally.step_lexeme h.2, List.filterMap_append, List.filterMap_append,
      filterMap_singleton, filterMap_singleton]

/-- A row of items is clean exactly when its literals are in range and the sums of its first
integers fit. -/
theorem clean_items_iff :
    Clean (items.flatMap Item.lexemes) ↔
      (∀ i ∈ items, i.literal.InRange) ∧ RunningFits 0 (items.filterMap Item.flat?) := by
  induction items using List.reverseRecOn with
  | nil => exact iff_of_true clean_nil ⟨by simp, Word.runningFits_nil.mpr Word.fits_zero⟩
  | append_singleton items i ih =>
    rw [Item.flatMap_lexemes_concat, clean_concat, List.filterMap_append, filterMap_singleton,
      Word.runningFits_append, List.forall_mem_append, List.forall_mem_singleton,
      Tally.forall_not_fault_lexeme_iff, Int.zero_add, Word.runningFits_toList]
    -- The tally is known only for items in range, and both sides fail if some item is not.
    by_cases hrange : ∀ j ∈ items, j.literal.InRange
    · have hpending : (Tally.of (items.flatMap Item.lexemes)).pending = none := by
        rw [Tally.of_items hrange]
      rw [clean_append_sign hpending, Tally.of_append_sign hpending, Tally.of_items hrange, ih]
      constructor
      · rintro ⟨⟨-, hrun⟩, hi, hfits⟩
        exact ⟨⟨hrange, hi⟩, hrun, by simpa using hrun.fits_sum, hfits⟩
      · rintro ⟨⟨-, hi⟩, hrun, -, hfits⟩
        exact ⟨⟨hrange, hrun⟩, hi, hfits⟩
    · exact iff_of_false (fun h => hrange (ih.mp h.1.of_append).1) fun h => hrange h.1.1

/-- A clean row of lexemes that can stand on their own is a row of items with perhaps one more sign
behind it. -/
theorem exists_items_of_clean {ls : List Lexeme} (h : Clean ls) (hformed : ∀ l ∈ ls, l.Formed) :
    ∃ items : List Item,
      ls = items.flatMap Item.lexemes ++ ((Tally.of ls).pending.map Lexeme.sign).toList := by
  -- From the right: a literal and the sign that is left before it make up the next item.
  induction ls using List.reverseRecOn with
  | nil => exact ⟨[], rfl⟩
  | append_singleton ls l ih =>
    rw [List.forall_mem_append, List.forall_mem_singleton] at hformed
    obtain ⟨hls, hl⟩ := clean_concat.mp h
    obtain ⟨items, hitems⟩ := ih hls hformed.1
    rcases Literal.exists_literal hformed.2 with ⟨l, rfl⟩ | ⟨s, rfl⟩ | ⟨c, rfl⟩
    · have hrange := (Tally.forall_not_fault_lexeme_iff.mp hl).1
      refine ⟨items ++ [⟨(Tally.of ls).pending, l⟩], ?_⟩
      rw [Tally.of_concat, Tally.step_lexeme hrange, List.flatMap_append, List.flatMap_singleton,
        Item.lexemes, ← List.append_assoc, ← hitems]
      exact (List.append_nil _).symm
    · refine ⟨items, ?_⟩
      rw [Tally.forall_not_fault_sign_iff.mp hl] at hitems
      rw [Tally.of_concat, hitems]
      simp [Tally.step, Lexeme.token]
    · exact absurd (.unreadable rfl) (hl .unreadable)

/-! ### Accepted notations -/

/-- A dice literal in range denotes a group with the numbers and the sign that are written, where
the number of dice is one and the sign is plus if they are not. -/
theorem Item.exists_group? {sign : Option Sign} {count : Option Numeral} {sides : Numeral}
    (h : (Literal.dice count sides).InRange) :
    ∃ g, Item.group? ⟨sign, .dice count sides⟩ = some g ∧
      g.count.toNat = count.elim 1 Numeral.value ∧ g.die.sides.toNat = sides.value ∧
      g.die.sign = sign.getD .plus := by
  obtain ⟨q, r, hq, hr⟩ := Literal.inRange_dice_iff.mp h
  refine ⟨⟨q, ⟨r, sign.getD .plus⟩⟩, ?_, ?_, Quantity.ofNat?_eq_some.mp hr, rfl⟩
  · simp [Item.group?, hq, hr, Item.signOrPlus]
  · cases count with
    | none =>
      cases hq
      rfl
    | some n => exact Quantity.ofNat?_eq_some.mp hq

theorem Item.exists_dice_of_group? {i : Item} {g : Group} (h : i.group? = some g) :
    ∃ count sides, i.literal = .dice count sides := by
  obtain ⟨sign, ⟨count, sides⟩ | value⟩ := i
  · exact ⟨count, sides, rfl⟩
  · cases h

theorem Acceptable.groups_ne_nil (h : Acceptable items) : items.filterMap Item.group? ≠ [] := by
  obtain ⟨⟨sign, l⟩, hi, count, sides, hl⟩ := h.dice
  subst hl
  obtain ⟨g, hg, -⟩ := @Item.exists_group? sign count sides (h.inRange _ hi)
  exact List.ne_nil_of_mem (List.mem_filterMap.mpr ⟨_, hi, hg⟩)

/-- A text whose lexemes are clean and leave no sign is a row of items. -/
theorem exists_chain_of_clean {w : List Char} (hclean : Clean (Lexeme.cut w))
    (hpending : (Tally.of (Lexeme.cut w)).pending = none) :
    ∃ items : List Item, items.IsChain Item.Follows ∧ items.flatMap Item.chars = w ∧
      Lexeme.cut w = items.flatMap Item.lexemes := by
  obtain ⟨items, hitems⟩ := exists_items_of_clean hclean (Lexeme.greedy_cut w).formed
  rw [hpending, Option.map_none, Option.toList_none, List.append_nil] at hitems
  obtain ⟨htext, hgreedy⟩ := Lexeme.cut_eq_iff.mp hitems
  rw [Item.flatMap_text_flatMap_lexemes] at htext
  exact ⟨items, Item.greedy_lexemes_iff.mp hgreedy, htext, hitems⟩

namespace Expression

/-- A notation without blanks is accepted exactly when it is spelled by acceptable items, and they
are its meaning. -/
theorem parseCompact_eq_ok_iff_spells {w : List Char} {e : Expression} :
    parseCompact w = .ok e ↔ ∃ items, Spells items w ∧ Acceptable items ∧
      items.filterMap Item.group? = e.groups ∧ (items.filterMap Item.flat?).sum = e.modifier := by
  rw [parseCompact_eq_ok_iff]
  constructor
  · rintro ⟨hclean, hpending, hgroups, hmodifier, hfit⟩
    obtain ⟨items, hchain, htext, hcut⟩ := exists_chain_of_clean hclean hpending
    rw [hcut, clean_items_iff] at hclean
    rw [hcut, Tally.of_items hclean.1] at hgroups hmodifier
    simp only at hgroups hmodifier
    obtain ⟨g, hg⟩ := List.exists_mem_of_ne_nil _ e.groups_ne_nil
    rw [← hgroups] at hg
    obtain ⟨i, hi, hgroup⟩ := List.mem_filterMap.mp hg
    refine ⟨items, ⟨List.ne_nil_of_mem hi, hchain, htext⟩, ⟨hclean.1, ?_, hclean.2, ?_⟩,
      hgroups, hmodifier⟩
    · exact ⟨i, hi, Item.exists_dice_of_group? hgroup⟩
    · rwa [hgroups, hmodifier]
  · rintro ⟨items, hspells, hitems, hgroups, hmodifier⟩
    rw [hspells.cut_eq, Tally.of_items hitems.inRange]
    exact ⟨clean_items_iff.mpr ⟨hitems.inRange, hitems.flats⟩, rfl, hgroups, hmodifier,
      hgroups ▸ hmodifier ▸ hitems.totals⟩

/-- **The accepted notations.** With blanks dropped, a notation is accepted exactly when it is
spelled by acceptable items. No text is spelled by two rows of items. The groups of the expression
are those of the dice literals in order, and its modifier is the sum of the signed integers. -/
theorem parse_iff_spells (s : String) :
    ((∃ e, parse s = .ok e) ↔ ∃ items, Spells items (Text.compact s.toList) ∧ Acceptable items) ∧
    (∀ items items', Spells items (Text.compact s.toList) →
      Spells items' (Text.compact s.toList) → items = items') ∧
    ∀ e, parse s = .ok e ↔ ∃ items, Spells items (Text.compact s.toList) ∧ Acceptable items ∧
      items.filterMap Item.group? = e.groups ∧ (items.filterMap Item.flat?).sum = e.modifier := by
  refine ⟨⟨?_, ?_⟩, ?_, fun e => parseCompact_eq_ok_iff_spells⟩
  · rintro ⟨e, he⟩
    obtain ⟨items, hspells, hitems, -⟩ := parseCompact_eq_ok_iff_spells.mp he
    exact ⟨items, hspells, hitems⟩
  · rintro ⟨items, hspells, hitems⟩
    have hmodifier : Fits (items.filterMap Item.flat?).sum := by
      simpa using hitems.flats.fits_sum
    exact ⟨⟨_, _, hitems.groups_ne_nil, hmodifier⟩,
      parseCompact_eq_ok_iff_spells.mpr ⟨items, hspells, hitems, rfl, rfl⟩⟩
  · intro items items' hitems hitems'
    exact Item.flatMap_lexemes_injective (hitems.cut_eq.symm.trans hitems'.cut_eq)

end Expression

end DiceSum
