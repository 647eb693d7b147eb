import DiceSum.Expression.Text
import DiceSum.Proofs.FirstFault
import DiceSum.Proofs.RowOutcome

/-!
# Reading what was written

The written form of an expression is itself a row of items: its groups, where a leading plus is left
out, and its modifier as one signed integer unless that is zero. Every item but the first has a
sign, so that the form can be read again, and all literals are in range with one exception. The
least 64-bit integer is written as a minus sign and a literal that is one too great to be read.

## Main definitions

* `DiceSum.Expression.items` — the items of the written form.

## Main results

* `DiceSum.Expression.spells_chars` — they spell the written form.
* `DiceSum.Expression.parse_text_of_ne_least`, `DiceSum.Expression.parse_text_of_eq_least` — reading
  the written form of any expression.
* `DiceSum.Expression.parse_text_eq_ok_iff` — the accepted notations whose written form is read as
  the same expression.
* `DiceSum.Expression.parse_text_eq_iff` — what reading the written form of an expression gives,
  for every expression.
* `DiceSum.Expression.text_eq_iff` — no two expressions have the same written form, whether it can
  be read or not.
-/

namespace DiceSum

open Word (Fits RunningFits)

/-! ### Written items -/

/-- The numeral of a natural number. -/
def Numeral.ofNat (n : Nat) : Numeral :=
  ⟨Text.numeral n, fun _ => Text.isDigit_of_mem_numeral, Text.numeral_ne_nil n⟩

@[simp] theorem Numeral.value_ofNat (n : Nat) : (Numeral.ofNat n).value = n := Text.value_numeral n

theorem Numeral.inRange_ofNat (q : Quantity) : Quantity.InRange (Numeral.ofNat q.toNat).value := by
  rw [Numeral.value_ofNat]
  exact q.inRange_toNat

theorem Text.isBlank_of_isDigit {c : Char} (h : c.isDigit = true) : Text.isBlank c = false := by
  rw [Char.isDigit_iff_toNat] at h
  by_contra hblank
  rw [Bool.not_eq_false, Text.isBlank, Text.CharSet.contains_eq_true] at hblank
  obtain ⟨r, hr, hlow, hhigh⟩ := hblank
  have hzero : '0'.toNat = 48 := rfl
  have hnine : '9'.toNat = 57 := rfl
  simp only [Text.blanks, List.mem_cons, List.not_mem_nil, or_false] at hr
  rcases hr with rfl | rfl | rfl | rfl | rfl | rfl | rfl | rfl | rfl | rfl <;> omega

theorem Text.isBlank_char (s : Sign) : Text.isBlank s.char = false := by
  cases s <;> rfl

theorem Literal.isBlank_of_mem_chars {l : Literal} {c : Char} (h : c ∈ l.chars) :
    Text.isBlank c = false := by
  cases l with
  | dice count sides =>
    rcases List.mem_append.mp h with hcount | hsides
    · exact Text.isBlank_of_isDigit (digits_countChars count c hcount)
    · rcases List.mem_cons.mp hsides with rfl | hsides
      · rfl
      · exact Text.isBlank_of_isDigit (sides.digits c hsides)
  | flat value => exact Text.isBlank_of_isDigit (value.digits c h)

namespace Item

theorem isBlank_of_mem_chars {i : Item} {c : Char} (h : c ∈ i.chars) : Text.isBlank c = false := by
  rcases List.mem_append.mp h with hsign | hliteral
  · obtain ⟨s, -, rfl⟩ := Option.map_eq_some_iff.mp (Option.mem_toList.mp hsign)
    exact Text.isBlank_char s
  · exact Literal.isBlank_of_mem_chars hliteral

/-- A row of items has no blanks. -/
theorem compact_flatMap_chars (items : List Item) :
    Text.compact (items.flatMap chars) = items.flatMap chars := by
  refine List.filter_eq_self.mpr fun c hc => ?_
  obtain ⟨i, -, hi⟩ := List.mem_flatMap.mp hc
  rw [isBlank_of_mem_chars hi]
  rfl

theorem isChain_of_signed (i : Item) {items : List Item} (h : ∀ j ∈ items, ∃ s, j.sign = some s) :
    (i :: items).IsChain Follows := by
  induction items generalizing i with
  | nil => exact .singleton i
  | cons j items ih =>
    rw [List.forall_mem_cons] at h
    obtain ⟨⟨s, hs⟩, hitems⟩ := h
    refine List.isChain_cons_cons.mpr ⟨?_, ih j hitems⟩
    obtain ⟨sign, l⟩ := j
    cases hs
    exact .signed i s l

end Item

namespace Group

/-- The dice literal that a group is written as. -/
def literal (g : Group) : Literal := .dice (some (.ofNat g.count.toNat)) (.ofNat g.die.sides.toNat)

/-- A group with its sign. -/
def item (g : Group) : Item := ⟨some g.die.sign, g.literal⟩

/-- A group at the start of a written form, where a plus is left out. -/
def leadingItem (g : Group) : Item :=
  match g.die.sign with
  | .plus => ⟨none, g.literal⟩
  | .minus => g.item

end Group

/-- An item that a group can be written as: its literal, and its sign unless that is left out. -/
structure Item.Writes (i : Item) (g : Group) : Prop where
  literal : i.literal = g.literal
  sign : i.signOrPlus = g.die.sign

namespace Item.Writes

variable {i : Item} {g : Group} {is : List Item} {gs : List Group}

theorem inRange (h : i.Writes g) : i.literal.InRange := by
  rw [h.literal]
  refine ⟨fun n hn => ?_, Numeral.inRange_ofNat g.die.sides⟩
  cases hn
  exact Numeral.inRange_ofNat g.count

theorem group?_eq (h : i.Writes g) : i.group? = some g := by
  have hcount : Quantity.ofCount? (some (.ofNat g.count.toNat)) = some g.count := by
    simp [Quantity.ofCount?]
  rw [Item.group?, h.literal, h.sign]
  simp [Group.literal, hcount]

theorem flat?_eq (h : i.Writes g) : i.flat? = none := by
  rw [Item.flat?, h.literal]
  rfl

theorem of_item (g : Group) : g.item.Writes g := ⟨rfl, rfl⟩

theorem of_leadingItem (g : Group) : g.leadingItem.Writes g := by
  rw [Group.leadingItem]
  split
  · next h => exact ⟨rfl, h.symm⟩
  · exact of_item g

theorem forall₂_item (gs : List Group) : List.Forall₂ Writes (gs.map Group.item) gs := by
  rw [List.forall₂_map_left_iff]
  exact List.forall₂_same.mpr fun g _ => of_item g

theorem forall_inRange (h : List.Forall₂ Writes is gs) : ∀ i ∈ is, i.literal.InRange := by
  induction h with
  | nil => simp
  | cons hi _ ih => exact List.forall_mem_cons.mpr ⟨hi.inRange, ih⟩

theorem filterMap_group? (h : List.Forall₂ Writes is gs) : is.filterMap Item.group? = gs := by
  induction h with
  | nil => rfl
  | cons hi _ ih => rw [List.filterMap_cons_some hi.group?_eq, ih]

theorem filterMap_flat? (h : List.Forall₂ Writes is gs) : is.filterMap Item.flat? = [] := by
  induction h with
  | nil => rfl
  | cons hi _ ih => rw [List.filterMap_cons_none hi.flat?_eq, ih]

end Item.Writes

namespace Expression

/-- The items of a row of groups. -/
def groupItems : List Group → List Item
  | [] => []
  | g :: gs => g.leadingItem :: gs.map Group.item

/-- An integer with its sign. -/
def flatItem (x : Int) : Item :=
  ⟨some (if x < 0 then .minus else .plus), .flat (.ofNat x.natAbs)⟩

/-- The item of a modifier; none if it is zero. -/
def modifierItems (modifier : Int) : List Item :=
  if modifier = 0 then [] else [flatItem modifier]

/-- The items of the written form of an expression. -/
def items (e : Expression) : List Item := groupItems e.groups ++ modifierItems e.modifier

theorem forall₂_writes_groupItems (groups : List Group) :
    List.Forall₂ Item.Writes (groupItems groups) groups := by
  cases groups with
  | nil => exact .nil
  | cons g gs => exact .cons (.of_leadingItem g) (Item.Writes.forall₂_item gs)

theorem flatMap_chars_groupItems (groups : List Group) :
    (groupItems groups).flatMap Item.chars = groupChars groups := by
  cases groups with
  | nil => rfl
  | cons g gs =>
    rw [groupItems, groupChars, List.flatMap_cons, List.flatMap_map, Group.leadingItem]
    cases g.die.sign <;> rfl

theorem flatMap_chars_modifierItems (modifier : Int) :
    (modifierItems modifier).flatMap Item.chars = modifierChars modifier := by
  rw [modifierItems, modifierChars]
  by_cases hzero : modifier = 0
  · simp [hzero]
  · rw [if_neg hzero, if_neg hzero, List.flatMap_singleton, flatItem]
    split <;> rfl

theorem flatMap_chars_items (e : Expression) : e.items.flatMap Item.chars = e.chars := by
  rw [items, List.flatMap_append, flatMap_chars_groupItems, flatMap_chars_modifierItems, chars]

/-- The written form of an expression is a row of items, all of which but the first have a sign. -/
theorem spells_chars (e : Expression) : Spells e.items e.chars := by
  obtain ⟨g, gs, hgroups⟩ := List.exists_cons_of_ne_nil e.groups_ne_nil
  have hitems : e.items =
      g.leadingItem :: (gs.map Group.item ++ modifierItems e.modifier) := by
    rw [items, hgroups, groupItems, List.cons_append]
  refine ⟨?_, ?_, e.flatMap_chars_items⟩
  · rw [hitems]
    exact List.cons_ne_nil _ _
  · rw [hitems]
    refine Item.isChain_of_signed _ fun i hi => ?_
    rcases List.mem_append.mp hi with hi | hi
    · obtain ⟨g', -, rfl⟩ := List.mem_map.mp hi
      exact ⟨g'.die.sign, rfl⟩
    · rw [modifierItems] at hi
      split at hi
      · cases hi
      · rw [List.mem_singleton.mp hi]
        exact ⟨_, rfl⟩

/-- A written form has no blanks. -/
theorem compact_chars (e : Expression) : Text.compact e.chars = e.chars := by
  rw [← flatMap_chars_items]
  exact Item.compact_flatMap_chars e.items

theorem flat?_flatItem (x : Int) : (flatItem x).flat? = some x := by
  have hvalue : (flatItem x).flat? = some ((if x < 0 then Sign.minus else Sign.plus).apply
      (Numeral.ofNat x.natAbs).value) := rfl
  rw [hvalue, Numeral.value_ofNat, Sign.apply_natAbs]

theorem inRange_flatItem_iff {x : Int} (h : Fits x) :
    (flatItem x).literal.InRange ↔ x ≠ Word.least := by
  rw [Word.fits_iff] at h
  rw [flatItem, Literal.InRange, Numeral.value_ofNat, Word.least]
  omega

theorem filterMap_group?_items (e : Expression) : e.items.filterMap Item.group? = e.groups := by
  rw [items, List.filterMap_append,
    Item.Writes.filterMap_group? (forall₂_writes_groupItems e.groups), modifierItems]
  split
  · exact List.append_nil _
  · exact List.append_nil _

theorem filterMap_flat?_items (e : Expression) :
    e.items.filterMap Item.flat? = if e.modifier = 0 then [] else [e.modifier] := by
  rw [items, List.filterMap_append,
    Item.Writes.filterMap_flat? (forall₂_writes_groupItems e.groups), List.nil_append,
    modifierItems]
  split
  · rfl
  · rw [List.filterMap_cons_some (flat?_flatItem _), List.filterMap_nil]

theorem sum_filterMap_flat?_items (e : Expression) :
    (e.items.filterMap Item.flat?).sum = e.modifier := by
  rw [filterMap_flat?_items]
  split
  · next h => exact h.symm
  · exact List.sum_singleton

theorem runningFits_flat?_items (e : Expression) :
    RunningFits 0 (e.items.filterMap Item.flat?) := by
  rw [filterMap_flat?_items]
  split
  · exact Word.runningFits_nil.mpr Word.fits_zero
  · simpa using ⟨Word.fits_zero, e.modifier_fits⟩

/-- The literals of a written form are in range unless the modifier is the least word. -/
theorem forall_inRange_items {e : Expression} (h : e.modifier ≠ Word.least) :
    ∀ i ∈ e.items, i.literal.InRange := by
  intro i hi
  rcases List.mem_append.mp hi with hi | hi
  · exact Item.Writes.forall_inRange (forall₂_writes_groupItems e.groups) i hi
  · rw [modifierItems] at hi
    split at hi
    · cases hi
    · rw [List.mem_singleton.mp hi]
      exact (inRange_flatItem_iff e.modifier_fits).mpr h

/-! ### Reading -/

theorem parse_text (e : Expression) : parse e.text = parseCompact e.chars := by
  rw [parse, toList_text, compact_chars]

/-- A written form with a modifier other than the least word is read to its end. Only its totals can
still be at fault. -/
theorem parse_text_of_ne_least {e : Expression} (h : e.modifier ≠ Word.least) :
    parse e.text =
      match totalBounds e.groups e.modifier with
      | none => .error ⟨.totalOverflow, Lexeme.utf8Size e.chars, ""⟩
      | some _ => .ok e := by
  have hread := parseCompact_of_runningFits e.spells_chars.chain (forall_inRange_items h)
    e.runningFits_flat?_items
  rw [flatMap_chars_items, filterMap_group?_items, sum_filterMap_flat?_items] at hread
  rw [parse_text, hread]
  exact ofTerms_parts _ e

/-- The literal of the least word, which is written behind a minus sign, is out of range. -/
theorem token_flatItem_least : (flatItem Word.least).literal.lexeme.token = .unreadable :=
  Literal.token_lexeme_eq_unreadable_iff.mpr fun h =>
    (inRange_flatItem_iff (by decide)).mp h rfl

theorem text_flatItem_least :
    (flatItem Word.least).literal.lexeme.text = "9223372036854775808".toList := by
  cbv

/-- The lexemes of a written form whose modifier is the least word: those of the groups, a minus
sign and the literal. -/
theorem cut_chars_of_eq_least {e : Expression} (h : e.modifier = Word.least) :
    Lexeme.cut e.chars = (groupItems e.groups).flatMap Item.lexemes ++ [.sign .minus] ++
      [(flatItem Word.least).literal.lexeme] := by
  have hitems : e.items = groupItems e.groups ++ [flatItem Word.least] := by
    rw [items, h, modifierItems, if_neg (by decide)]
  rw [e.spells_chars.cut_eq, hitems, Item.flatMap_lexemes_concat]
  rfl

/-- Reading the written form of an expression stops at its modifier if that is the least word. -/
theorem parse_text_of_eq_least {e : Expression} (h : e.modifier = Word.least) :
    parse e.text =
      .error ⟨.unreadable, Lexeme.utf8Size e.chars - 19, "9223372036854775808"⟩ := by
  have hcut := cut_chars_of_eq_least h
  have hwrites := forall₂_writes_groupItems e.groups
  have hrange := Item.Writes.forall_inRange hwrites
  have hgroups : Clean ((groupItems e.groups).flatMap Item.lexemes) := by
    rw [clean_items_iff, Item.Writes.filterMap_flat? hwrites]
    exact ⟨hrange, Word.runningFits_nil.mpr Word.fits_zero⟩
  have hfront : Clean ((groupItems e.groups).flatMap Item.lexemes ++ [.sign .minus]) :=
    (clean_append_sign (by rw [Tally.of_items hrange]) (some .minus)).mpr hgroups
  -- The literal takes the last bytes of the text, so that the fault is found before them.
  have hsize := congrArg Lexeme.utf8Size (Lexeme.flatMap_text_cut e.chars)
  rw [hcut, List.flatMap_append, List.flatMap_singleton, Lexeme.utf8Size_append,
    text_flatItem_least] at hsize
  have hliteral : Lexeme.utf8Size "9223372036854775808".toList = 19 := by cbv
  rw [parse_text, parseCompact, hcut, Terms.read_of_fault hfront (.unreadable token_flatItem_least),
    Terms.reject, text_flatItem_least, String.ofList_toList, Except.bind, ← hsize, hliteral,
    Nat.add_sub_cancel]

/-- **Reading what was written.** The written form of an accepted notation is read as the same
expression exactly when the modifier is not the least word. Several integers can add up to that
word, but its written form is rejected at the literal. -/
theorem parse_text_eq_ok_iff {s : String} {e : Expression} (h : parse s = .ok e) :
    (parse e.text = .ok e ↔ e.modifier ≠ Word.least) ∧
    (e.modifier = Word.least → parse e.text =
      .error ⟨.unreadable, Lexeme.utf8Size e.chars - 19, "9223372036854775808"⟩) := by
  refine ⟨⟨fun htext hleast => ?_, fun hleast => ?_⟩, parse_text_of_eq_least⟩
  · rw [parse_text_of_eq_least hleast] at htext
    cases htext
  · obtain ⟨-, -, -, -, hfit⟩ := parseCompact_eq_ok_iff.mp h
    rw [parse_text_of_ne_least hleast, totalBounds_eq_some_iff.mpr ⟨hfit, rfl⟩]

/-- A die of one side and the least word but one. -/
def aboveLeast : Expression where
  groups := [⟨.one, ⟨.one, .plus⟩⟩]
  modifier := -9223372036854775807
  groups_ne_nil := by decide
  modifier_fits := by decide

theorem parse_text_aboveLeast :
    parse "d1-9223372036854775807" = .ok aboveLeast ∧ parse aboveLeast.text = .ok aboveLeast := by
  have hparse : parse "d1-9223372036854775807" = .ok aboveLeast := by cbv
  exact ⟨hparse, (parse_text_eq_ok_iff hparse).1.mpr (by decide)⟩

/-- A die of one side and the least word. -/
def atLeast : Expression where
  groups := [⟨.one, ⟨.one, .plus⟩⟩]
  modifier := -9223372036854775808
  groups_ne_nil := by decide
  modifier_fits := by decide

theorem parse_text_atLeast :
    parse "d1-9223372036854775807-1" = .ok atLeast ∧
    parse atLeast.text = .error ⟨.unreadable, 4, "9223372036854775808"⟩ := by
  constructor
  · cbv
  · cbv

theorem utf8ByteSize_text (e : Expression) : e.text.utf8ByteSize = Lexeme.utf8Size e.chars :=
  utf8ByteSize_ofList e.chars

/-- A written form with the least word has room for its nineteen digits. -/
theorem le_utf8Size_chars_of_eq_least {e : Expression} (h : e.modifier = Word.least) :
    19 ≤ Lexeme.utf8Size e.chars := by
  have hmodifier : Lexeme.utf8Size (modifierChars Word.least) = 20 := by cbv
  rw [chars, h, Lexeme.utf8Size_append, hmodifier]
  omega

/-- **The outcome of reading what was written.** The written form of any expression, whether some
notation is read as it or not, is read as this expression if the modifier is not the least word and
the checked bounds exist. If the modifier is the least word, it is rejected at the last nineteen
bytes, for a literal out of range. If only the bounds are missing, it is rejected at its end for the
totals. There is no other outcome. -/
theorem parse_text_eq_iff (e : Expression) :
    (∀ e', parse e.text = .ok e' ↔
      e' = e ∧ e.modifier ≠ Word.least ∧ (totalBounds e.groups e.modifier).isSome) ∧
    ∀ r, parse e.text = .error r ↔
      (e.modifier = Word.least ∧ r.cause = .unreadable ∧ r.slice = "9223372036854775808" ∧
        r.position + 19 = e.text.utf8ByteSize) ∨
      (e.modifier ≠ Word.least ∧ totalBounds e.groups e.modifier = none ∧
        r.cause = .totalOverflow ∧ r.slice = "" ∧ r.position = e.text.utf8ByteSize) := by
  rw [utf8ByteSize_text]
  by_cases hleast : e.modifier = Word.least
  · have hroom := le_utf8Size_chars_of_eq_least hleast
    rw [parse_text_of_eq_least hleast]
    refine ⟨fun e' => by simp [hleast], fun r => ⟨?_, ?_⟩⟩
    · rintro ⟨⟩
      exact .inl ⟨hleast, rfl, rfl, Nat.sub_add_cancel hroom⟩
    · rintro (⟨-, hcause, hslice, hposition⟩ | ⟨hne, -⟩)
      · rw [← hcause, ← hslice, ← hposition, Nat.add_sub_cancel]
      · exact absurd hleast hne
  · rw [parse_text_of_ne_least hleast]
    cases hbounds : totalBounds e.groups e.modifier with
    | none =>
      refine ⟨fun e' => by simp, fun r => ⟨?_, ?_⟩⟩
      · rintro ⟨⟩
        exact .inr ⟨hleast, rfl, rfl, rfl, rfl⟩
      · rintro (⟨heq, -⟩ | ⟨-, -, hcause, hslice, hposition⟩)
        · exact absurd heq hleast
        · rw [← hcause, ← hslice, ← hposition]
    | some b =>
      refine ⟨fun e' => ?_, fun r => by simp [hleast]⟩
      simp only [Except.ok.injEq, ne_eq, hleast, not_false_eq_true, Option.isSome_some, and_true]
      exact eq_comm

/-! ### Telling expressions apart -/

theorem eq_of_parts {e e' : Expression} (hgroups : e.groups = e'.groups)
    (hmodifier : e.modifier = e'.modifier) : e = e' := by
  cases e
  cases e'
  cases hgroups
  cases hmodifier
  rfl

/-- The greedy cut finds the items of a written form, also where they are out of range. -/
theorem items_eq_of_chars_eq {e e' : Expression} (h : e.chars = e'.chars) : e.items = e'.items := by
  refine Item.flatMap_lexemes_injective ?_
  rw [← e.spells_chars.cut_eq, h, e'.spells_chars.cut_eq]

/-- **Written forms tell expressions apart.** Two expressions with the same written form have the
same groups, in the same order, and the same modifier, whether some notation is read as them or not.
So the expressions of two accepted notations are equal exactly when their written forms are. -/
theorem text_eq_iff :
    (∀ e e' : Expression,
      e.text = e'.text ↔ e.groups = e'.groups ∧ e.modifier = e'.modifier) ∧
    ∀ (s s' : String) (e e' : Expression), parse s = .ok e → parse s' = .ok e' →
      (e = e' ↔ e.text = e'.text) := by
  have htext : ∀ e e' : Expression,
      e.text = e'.text ↔ e.groups = e'.groups ∧ e.modifier = e'.modifier := by
    intro e e'
    constructor
    · intro h
      have hitems := items_eq_of_chars_eq (String.ofList_injective h)
      rw [← e.filterMap_group?_items, ← e.sum_filterMap_flat?_items, hitems,
        e'.filterMap_group?_items, e'.sum_filterMap_flat?_items]
      exact ⟨rfl, rfl⟩
    · rintro ⟨hgroups, hmodifier⟩
      rw [eq_of_parts hgroups hmodifier]
  refine ⟨htext, fun s s' e e' _ _ => ⟨congrArg text, fun h => ?_⟩⟩
  obtain ⟨hgroups, hmodifier⟩ := (htext e e').mp h
  exact eq_of_parts hgroups hmodifier

/-- Two notations with one written form, and the written form with the least word, which cannot be
read but belongs to one expression only. -/
theorem text_eq_iff_atLeast :
    parse "d1-9223372036854775807" = .ok aboveLeast ∧
    (∃ e, parse "-1 + 01d001 - 9223372036854775806" = .ok e ∧
      e.text = "1d1-9223372036854775807" ∧ aboveLeast = e) ∧
    parse atLeast.text = .error ⟨.unreadable, 4, "9223372036854775808"⟩ ∧
    ∀ e : Expression, e.text = atLeast.text →
      e.groups = atLeast.groups ∧ e.modifier = Word.least := by
  have hshort : parse "d1-9223372036854775807" = .ok aboveLeast := by cbv
  have hlong : parse "-1 + 01d001 - 9223372036854775806" = .ok aboveLeast := by cbv
  have htext : aboveLeast.text = "1d1-9223372036854775807" := by cbv
  refine ⟨hshort, ⟨aboveLeast, hlong, htext, ?_⟩, by cbv, fun e h => ?_⟩
  · exact (text_eq_iff.2 _ _ _ _ hshort hlong).mpr rfl
  · exact (text_eq_iff.1 e atLeast).mp h

end Expression

end DiceSum
