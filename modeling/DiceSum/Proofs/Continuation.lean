import DiceSum.Proofs.Joining
import DiceSum.Proofs.RoundTrip

/-!
# What can follow a rejected notation

A lexeme at fault cannot be mended by what is written behind it, unless the text behind goes on with
a digit or the letter `d`, which may make the lexemes at the end longer. A notation that is rejected
as a whole can be mended: a sign at its end takes a zero, two more integers bring the modifier back
to zero, and a die is added if there is none. This fails only if the groups themselves have no
checked bounds. Then no text behind helps, since all groups but the last stay as they are, and the
last can only get more sides.

## Main definitions

* `DiceSum.Lexeme.Apart` — texts that prolong no lexeme.
* `DiceSum.Opens` — texts without a fault, as a row of items and perhaps one more sign.
* `DiceSum.Group.Widens` — a group with perhaps more sides.
* `DiceSum.Tally.completion` — the items that complete a text without a fault.
* `DiceSum.Expression.writtenGroups` — the groups of a notation that need not be accepted.

## Main results

* `DiceSum.Lexeme.cut_append`, `DiceSum.Item.cut_flatMap_chars_append` — lexemes that stay as they
  are in front of a text.
* `DiceSum.Opens.exists_widens` — the groups of a text in a longer one.
* `DiceSum.Opens.exists_parseCompact_append`, `DiceSum.Opens.totalsFit_of_parseCompact_append` — the
  texts that can be completed.
* `DiceSum.Expression.parse_append_of_error` — what can follow a rejected notation.
-/

namespace DiceSum

open Word (Fits RunningFits)

/-! ### Texts behind a lexeme -/

namespace Lexeme

variable {u v w : List Char} {l : Lexeme} {ls ls' : List Lexeme}

theorem digits_append_eq_nil (hu : digits u = []) (hv : digits v = []) : digits (u ++ v) = [] := by
  cases u with
  | nil => exact hv
  | cons c u => exact digits_cons_of_not (not_isDigit_of_digits_eq_nil hu) (u ++ v)

theorem digits_eq_nil_of_append (h : digits (u ++ v) = []) : digits u = [] := by
  cases u with
  | nil => rfl
  | cons c u => exact digits_cons_of_not (not_isDigit_of_digits_eq_nil h) u

/-- A lexeme that the text behind it does not prolong is not prolonged by the start of that text. -/
theorem EndsBefore.of_append (h : l.EndsBefore (u ++ v)) : l.EndsBefore u := by
  cases l with
  | dice count sides => exact digits_eq_nil_of_append h
  | integer digits =>
    refine ⟨digits_eq_nil_of_append h.1, fun x hx => ?_⟩
    subst hx
    exact digits_eq_nil_of_append (h.2 (x ++ v) rfl)
  | sign s => trivial
  | stray c => exact fun hc => digits_eq_nil_of_append (h hc)

theorem Greedy.of_append (h : Greedy (ls ++ ls')) : Greedy ls := by
  induction ls with
  | nil => trivial
  | cons l ls ih =>
    rw [List.cons_append] at h
    obtain ⟨hformed, hends, hrest⟩ := h
    rw [List.flatMap_append] at hends
    exact ⟨hformed, hends.of_append, ih hrest⟩

/-- A text that prolongs no lexeme in front of it: it does not start with a digit or the letter
`d`. -/
def Apart (w : List Char) : Prop := ∀ c ∈ w.head?, c.isDigit = false ∧ c ≠ 'd'

theorem Apart.digits_eq_nil (h : Apart w) : digits w = [] := by
  cases w with
  | nil => rfl
  | cons c w => exact digits_cons_of_not (h c rfl).1 w

theorem EndsBefore.append (h : l.EndsBefore w) (hv : Apart v) : l.EndsBefore (w ++ v) := by
  cases l with
  | dice count sides => exact digits_append_eq_nil h hv.digits_eq_nil
  | integer digits =>
    refine ⟨digits_append_eq_nil h.1 hv.digits_eq_nil, fun x hx => ?_⟩
    cases w with
    | nil => exact absurd rfl (hv 'd' (congrArg List.head? hx)).2
    | cons c w =>
      obtain ⟨rfl, rfl⟩ := List.cons.inj hx
      exact digits_append_eq_nil (h.2 w rfl) hv.digits_eq_nil
  | sign s => trivial
  | stray c => exact fun hc => digits_append_eq_nil (h hc) hv.digits_eq_nil

theorem Greedy.append (h : Greedy ls) (h' : Greedy ls') (hv : Apart (ls'.flatMap text)) :
    Greedy (ls ++ ls') := by
  induction ls with
  | nil => exact h'
  | cons l ls ih =>
    obtain ⟨hformed, hends, hrest⟩ := h
    rw [List.cons_append]
    refine ⟨hformed, ?_, ih hrest⟩
    rw [List.flatMap_append]
    exact hends.append hv

/-- No lexeme of a text is cut in another way for a text behind it that is apart. -/
theorem cut_append (w : List Char) (hv : Apart v) : cut (w ++ v) = cut w ++ cut v := by
  rw [cut_eq_iff, List.flatMap_append, flatMap_text_cut, flatMap_text_cut]
  exact ⟨rfl, (greedy_cut w).append (greedy_cut v) (by rwa [flatMap_text_cut])⟩

end Lexeme

/-! ### Faults -/

namespace FirstFault

theorem slice_ne_empty {w : List Char} {front back : List Lexeme} {l : Lexeme}
    (hcut : Lexeme.cut w = front ++ l :: back) : String.ofList l.text ≠ "" := by
  intro hslice
  refine Lexeme.text_ne_nil_of_mem_cut (hcut ▸ List.mem_append_right front List.mem_cons_self) ?_
  exact String.toList_ofList.symm.trans (congrArg String.toList hslice)

variable {v w : List Char} {r : Rejection} (h : FirstFault w r)

include h

/-- The faults that are reported without a text are those of a notation whose lexemes have none. -/
theorem slice_eq_empty_iff_clean : r.slice = "" ↔ Clean (Lexeme.cut w) := by
  rw [← faultless_iff_clean]
  cases h with
  | @lexeme front back l cause hcut hfront hl =>
    refine iff_of_false (slice_ne_empty hcut) fun hfaultless => ?_
    exact hfaultless front l (by simp [hcut]) cause hl
  | danglingSign hclean hsign => exact iff_of_true rfl hclean
  | noDice hclean hsign hdice => exact iff_of_true rfl hclean
  | totalOverflow hclean hsign hdice hbounds => exact iff_of_true rfl hclean

/-- They are the three faults of a whole notation. -/
theorem slice_eq_empty_iff :
    r.slice = "" ↔ r.cause = .danglingSign ∨ r.cause = .noDice ∨ r.cause = .totalOverflow := by
  cases h with
  | @lexeme front back l cause hcut hfront hl =>
    refine iff_of_false (slice_ne_empty hcut) ?_
    cases hl <;> simp
  | danglingSign hclean hsign => simp
  | noDice hclean hsign hdice => simp
  | totalOverflow hclean hsign hdice hbounds => simp

/-- A fault that is reported with the text of a lexeme remains the first one. -/
theorem append (hslice : r.slice ≠ "") (hv : Lexeme.Apart v) : FirstFault (w ++ v) r := by
  cases h with
  | @lexeme front back l cause hcut hfront hl =>
    have happend : Lexeme.cut (w ++ v) = front ++ l :: (back ++ Lexeme.cut v) := by
      rw [Lexeme.cut_append w hv, hcut, List.append_assoc, List.cons_append]
    exact .lexeme happend hfront hl
  | danglingSign hclean hsign => exact absurd rfl hslice
  | noDice hclean hsign hdice => exact absurd rfl hslice
  | totalOverflow hclean hsign hdice hbounds => exact absurd rfl hslice

end FirstFault

/-! ### Texts without a fault -/

/-- The lexemes of the text `w` are a row of items in range whose integers can be added up, and the
sign `pending` behind them if there is one. -/
structure Opens (items : List Item) (pending : Option Sign) (w : List Char) : Prop where
  cut_eq : Lexeme.cut w = items.flatMap Item.lexemes ++ (pending.map Lexeme.sign).toList
  inRange : ∀ i ∈ items, i.literal.InRange
  flats : RunningFits 0 (items.filterMap Item.flat?)

theorem exists_opens {w : List Char} (h : Clean (Lexeme.cut w)) :
    ∃ items pending, Opens items pending w := by
  obtain ⟨items, hitems⟩ := exists_items_of_clean h (Lexeme.greedy_cut w).formed
  rw [hitems] at h
  obtain ⟨hrange, hflats⟩ := clean_items_iff.mp h.of_append
  exact ⟨items, _, hitems, hrange, hflats⟩

namespace Opens

variable {items : List Item} {pending : Option Sign} {w : List Char} (h : Opens items pending w)

include h

theorem chain : items.IsChain Item.Follows := by
  have hgreedy := Lexeme.greedy_cut w
  rw [h.cut_eq] at hgreedy
  exact Item.greedy_lexemes_iff.mp hgreedy.of_append

theorem text : items.flatMap Item.chars ++ (pending.map Sign.char).toList = w := by
  rw [← Item.flatMap_text_flatMap_lexemes, ← flatMap_text_sign, ← List.flatMap_append, ← h.cut_eq,
    Lexeme.flatMap_text_cut]

theorem tally_eq :
    Tally.of (Lexeme.cut w) =
      ⟨items.filterMap Item.group?, items.filterMap Item.flat?, pending⟩ := by
  have hitems := Tally.of_items h.inRange
  rw [h.cut_eq, Tally.of_append_sign (by rw [hitems]), hitems]

end Opens

/-! ### Items in front of a text -/

namespace Item

/-- An item is cut off in front of a text that does not prolong its literal. -/
theorem cut_chars_append (i : Item) {w : List Char} (hw : i.literal.lexeme.EndsBefore w) :
    Lexeme.cut (i.chars ++ w) = i.lexemes ++ Lexeme.cut w := by
  have hliteral : Lexeme.cut (i.literal.chars ++ w) = i.literal.lexeme :: Lexeme.cut w := by
    rw [← Literal.text_lexeme]
    exact Lexeme.cut_text_append i.literal.formed_lexeme hw
  rw [chars, lexemes, List.append_assoc, List.append_assoc, List.singleton_append, ← hliteral]
  cases i.sign with
  | none => rfl
  | some s => exact Lexeme.cut_text_append (l := .sign s) trivial trivial

/-- The items of a row are cut off in front of a text that does not prolong the last of them. -/
theorem cut_flatMap_chars_append {items : List Item} (h : items.IsChain Follows) {w : List Char}
    (hw : ∀ i ∈ items.getLast?, i.literal.lexeme.EndsBefore w) :
    Lexeme.cut (items.flatMap chars ++ w) = items.flatMap lexemes ++ Lexeme.cut w := by
  induction items with
  | nil => rfl
  | cons i items ih =>
    have hrest : Lexeme.cut (items.flatMap chars ++ w) =
        items.flatMap lexemes ++ Lexeme.cut w := by
      refine ih h.tail fun j hj => hw j ?_
      cases items with
      | nil => cases hj
      | cons j' items => exact hj
    have hends : i.literal.lexeme.EndsBefore (items.flatMap chars ++ w) := by
      cases items with
      | nil => exact hw i rfl
      | cons j items =>
        rw [List.flatMap_cons, List.append_assoc, endsBefore_iff_follows]
        exact (List.isChain_cons_cons.mp h).1
    rw [List.flatMap_cons, List.append_assoc, i.cut_chars_append hends, hrest, List.flatMap_cons,
      List.append_assoc]

end Item

/-! ### Groups with more sides -/

namespace Group

/-- The group `g'` has the sign and the number of dice of `g`, and at least as many sides. -/
structure Widens (g g' : Group) : Prop where
  count : g.count = g'.count
  sign : g.die.sign = g'.die.sign
  sides : g.die.sides.toNat ≤ g'.die.sides.toNat

theorem Widens.refl (g : Group) : g.Widens g := ⟨rfl, rfl, Nat.le_refl _⟩

theorem low_le_high (g : Group) : g.low ≤ g.high := by
  simpa using sum_low_le_sum_high [g]

namespace Widens

variable {g g' : Group} {gs gs' : List Group}

theorem span_le (h : g.Widens g') : g.span ≤ g'.span := by
  rw [span, span, h.count]
  exact Int.mul_le_mul_of_nonneg_left (Int.ofNat_le.mpr h.sides) (Int.natCast_nonneg _)

theorem low_le (h : g.Widens g') : g'.low ≤ g.low := by
  rw [low, low, ← h.sign]
  cases g.die.sign with
  | plus => rw [h.count]
  | minus => exact Int.neg_le_neg h.span_le

theorem high_le (h : g.Widens g') : g.high ≤ g'.high := by
  rw [high, high, ← h.sign]
  cases g.die.sign with
  | plus => exact h.span_le
  | minus => rw [h.count]

theorem fits_span (h : g.Widens g') (hfits : Fits g'.span) : Fits g.span :=
  fits_span_iff.mpr (h.span_le.trans (fits_span_iff.mp hfits))

theorem forall₂_refl (gs : List Group) : List.Forall₂ Widens gs gs :=
  List.forall₂_same.mpr fun g _ => .refl g

theorem forall_fits_span (h : List.Forall₂ Widens gs gs') (hfits : ∀ g ∈ gs', Fits g.span) :
    ∀ g ∈ gs, Fits g.span := by
  induction h with
  | nil => exact hfits
  | cons hg _ ih =>
    rw [List.forall_mem_cons] at hfits ⊢
    exact ⟨hg.fits_span hfits.1, ih hfits.2⟩

end Widens

end Group

namespace TotalsFit

variable {gs gs' : List Group} {modifier : Int}

theorem of_append (h : TotalsFit (gs ++ gs') modifier) : TotalsFit gs 0 := by
  obtain ⟨hspan, hlow, hhigh, -, -⟩ := h
  rw [List.map_append, Word.runningFits_append] at hlow hhigh
  exact ⟨fun g hg => hspan g (List.mem_append_left gs' hg), hlow.1, hhigh.1,
    by simpa using hlow.1.fits_sum, by simpa using hhigh.1.fits_sum⟩

theorem runningFits_map {f : Group → Int} (h : TotalsFit gs' 0)
    (hgs : List.Forall₂ Group.Widens gs gs') (hle : ∀ g g', g.Widens g' → g'.low ≤ f g)
    (hge : ∀ g g', g.Widens g' → f g ≤ g'.high) : RunningFits 0 (gs.map f) := by
  refine h.low.of_between h.high ?_ ?_
  · rw [List.forall₂_map_left_iff, List.forall₂_map_right_iff]
    exact (hgs.imp hle).flip
  · rw [List.forall₂_map_left_iff, List.forall₂_map_right_iff]
    exact hgs.imp hge

/-- All sums of the groups lie between sums of the groups with more sides. -/
theorem of_widens (h : TotalsFit gs' 0) (hgs : List.Forall₂ Group.Widens gs gs') :
    TotalsFit gs 0 := by
  have hlow : RunningFits 0 (gs.map Group.low) :=
    h.runningFits_map hgs (fun _ _ hg => hg.low_le) fun g _ hg => g.low_le_high.trans hg.high_le
  have hhigh : RunningFits 0 (gs.map Group.high) :=
    h.runningFits_map hgs (fun g _ hg => hg.low_le.trans g.low_le_high) fun _ _ hg => hg.high_le
  exact ⟨Group.Widens.forall_fits_span hgs h.span, hlow, hhigh, by simpa using hlow.fits_sum,
    by simpa using hhigh.fits_sum⟩

end TotalsFit

/-! ### The groups of a longer text -/

theorem Text.value_le_value_append (ds ds' : List Char) : value ds ≤ value (ds ++ ds') := by
  rw [value, value, Nat.ofDigitChars_append]
  generalize Nat.ofDigitChars 10 ds 0 = n
  induction ds' generalizing n with
  | nil => exact Nat.le_refl n
  | cons c ds' ih =>
    rw [Nat.ofDigitChars_cons]
    exact le_trans (by omega) (ih _)

/-- A numeral that takes in the digits at the start of the text behind it. -/
def Numeral.prolong (n : Numeral) (v : List Char) : Numeral where
  chars := n.chars ++ Lexeme.digits v
  digits := List.forall_mem_append.mpr ⟨n.digits, Lexeme.digits_digits v⟩
  ne_nil := List.append_ne_nil_of_left_ne_nil n.ne_nil (Lexeme.digits v)

namespace Item

variable {front : List Item} {i : Item} {sign : Option Sign} {count : Option Numeral}
  {sides : Numeral} {v : List Char}

theorem Follows.prolong (h : i.Follows ⟨sign, .dice count sides⟩) :
    i.Follows ⟨sign, .dice count (sides.prolong v)⟩ := by
  cases h with
  | signed s => exact .signed i _ _
  | dice sign' count' sides' => exact .dice sign' count' sides' _

/-- Digits behind a row of items make the dice literal at its end longer. -/
theorem cut_dice_append (h : (front ++ [mk sign (.dice count sides)]).IsChain Follows) :
    Lexeme.cut ((front ++ [mk sign (.dice count sides)]).flatMap chars ++ v) =
      (front ++ [mk sign (.dice count (sides.prolong v))]).flatMap lexemes ++
        Lexeme.cut (Lexeme.afterDigits v) := by
  obtain ⟨hfront, -, hlast⟩ := List.isChain_append.mp h
  rw [← cut_flatMap_chars_append]
  · simp [chars, Literal.chars, Numeral.prolong, Lexeme.digits_append_afterDigits]
  · refine List.isChain_append.mpr ⟨hfront, .singleton _, fun j hj k hk => ?_⟩
    cases hk
    exact (hlast j hj _ rfl).prolong
  · intro j hj
    rw [List.getLast?_concat] at hj
    cases hj
    exact Lexeme.digits_afterDigits v

/-- All items of a row but the last are cut off, whatever stands behind the row. -/
theorem cut_concat_append (h : (front ++ [i]).IsChain Follows) :
    Lexeme.cut ((front ++ [i]).flatMap chars ++ v) =
      front.flatMap lexemes ++ Lexeme.cut (i.chars ++ v) := by
  obtain ⟨hfront, -, hlast⟩ := List.isChain_append.mp h
  rw [List.flatMap_append, List.flatMap_singleton, List.append_assoc]
  refine cut_flatMap_chars_append hfront fun j hj => ?_
  exact (endsBefore_iff_follows j i v).mpr (hlast j hj i rfl)

end Item

/-- The group of a dice literal has at least as many sides if its number of sides is prolonged. -/
theorem Group.widens_prolong (sign : Option Sign) {count : Option Numeral} {sides : Numeral}
    {v : List Char} (h : (Literal.dice count sides).InRange)
    (h' : (Literal.dice count (sides.prolong v)).InRange) :
    ∃ g g', Item.group? ⟨sign, .dice count sides⟩ = some g ∧
      Item.group? ⟨sign, .dice count (sides.prolong v)⟩ = some g' ∧ g.Widens g' := by
  obtain ⟨g, hg, hcount, hsides, hsign⟩ := Item.exists_group? h
  obtain ⟨g', hg', hcount', hsides', hsign'⟩ := Item.exists_group? h'
  refine ⟨g, g', hg, hg', Quantity.ext (hcount.trans hcount'.symm), hsign.trans hsign'.symm, ?_⟩
  rw [hsides, hsides']
  exact Text.value_le_value_append sides.chars (Lexeme.digits v)

namespace Tally

theorem groups_prefix_step (t : Tally) (l : Lexeme) : t.groups <+: (t.step l).groups := by
  rw [step]
  cases l.token with
  | dice count sides => exact List.prefix_append _ _
  | integer x => exact List.prefix_rfl
  | sign s => exact List.prefix_rfl
  | unreadable => exact List.prefix_rfl

theorem groups_prefix_append (ls ls' : List Lexeme) :
    (Tally.of ls).groups <+: (Tally.of (ls ++ ls')).groups := by
  induction ls' using List.reverseRecOn with
  | nil => rw [List.append_nil]
  | append_singleton ls' l ih =>
    rw [← List.append_assoc, of_concat]
    exact ih.trans (groups_prefix_step _ l)

end Tally

/-- The items that a row without a fault starts with are in range, and their groups stand in
front. -/
theorem Clean.inRange_and_prefix_groups {items : List Item} {ls : List Lexeme}
    (h : Clean (items.flatMap Item.lexemes ++ ls)) :
    (∀ i ∈ items, i.literal.InRange) ∧
      items.filterMap Item.group? <+:
        (Tally.of (items.flatMap Item.lexemes ++ ls)).groups := by
  have hrange := (clean_items_iff.mp h.of_append).1
  have hgroups := Tally.groups_prefix_append (items.flatMap Item.lexemes) ls
  rw [Tally.of_items hrange] at hgroups
  exact ⟨hrange, hgroups⟩

/-- The groups of a row of items but the last are groups of a longer text. The last one can get more
sides there. -/
theorem exists_widens_of_chain {items : List Item} (hchain : items.IsChain Item.Follows)
    (hrange : ∀ i ∈ items, i.literal.InRange) {v : List Char}
    (hclean : Clean (Lexeme.cut (items.flatMap Item.chars ++ v))) :
    ∃ gs, List.Forall₂ Group.Widens (items.filterMap Item.group?) gs ∧
      gs <+: (Tally.of (Lexeme.cut (items.flatMap Item.chars ++ v))).groups := by
  rcases List.eq_nil_or_concat' items with rfl | ⟨front, i, rfl⟩
  · exact ⟨[], .nil, List.nil_prefix⟩
  rw [List.forall_mem_append, List.forall_mem_singleton] at hrange
  rw [List.filterMap_append, filterMap_singleton]
  obtain ⟨sign, ⟨count, sides⟩ | value⟩ := i
  · -- a dice literal takes in the digits that follow, and nothing else
    rw [Item.cut_dice_append hchain] at hclean ⊢
    obtain ⟨hrange', hgroups⟩ := hclean.inRange_and_prefix_groups
    rw [List.forall_mem_append, List.forall_mem_singleton] at hrange'
    obtain ⟨g, g', hg, hg', hwidens⟩ := Group.widens_prolong sign hrange.2 hrange'.2
    rw [List.filterMap_append, filterMap_singleton, hg'] at hgroups
    rw [hg]
    exact ⟨_, List.rel_append (Group.Widens.forall₂_refl _) (.cons hwidens .nil), hgroups⟩
  · -- an integer has no group here, and what it is part of stands behind the other groups
    rw [Item.cut_concat_append hchain] at hclean ⊢
    refine ⟨_, Group.Widens.forall₂_refl _, ?_⟩
    exact (List.append_nil _).symm ▸ hclean.inRange_and_prefix_groups.2

theorem Opens.exists_widens {items : List Item} {pending : Option Sign} {w v : List Char}
    (h : Opens items pending w) (hclean : Clean (Lexeme.cut (w ++ v))) :
    ∃ gs, List.Forall₂ Group.Widens (items.filterMap Item.group?) gs ∧
      gs <+: (Tally.of (Lexeme.cut (w ++ v))).groups := by
  have htext := h.text
  cases pending with
  | none =>
    rw [Option.map_none, Option.toList_none, List.append_nil] at htext
    subst htext
    exact exists_widens_of_chain h.chain h.inRange hclean
  | some s =>
    -- a sign at the end keeps every literal in front of it as it is
    have hcut : Lexeme.cut (w ++ v) = items.flatMap Item.lexemes ++ Lexeme.cut (s.char :: v) := by
      rw [← htext, List.append_assoc]
      exact Item.cut_flatMap_chars_append h.chain fun i _ => i.literal.endsBefore_sign s v
    rw [hcut] at hclean ⊢
    exact ⟨_, Group.Widens.forall₂_refl _, hclean.inRange_and_prefix_groups.2⟩

/-! ### Completed texts -/

/-- A die of one side, if there is no group. -/
def missingGroups : List Group → List Group
  | [] => [⟨.one, ⟨.one, .plus⟩⟩]
  | _ :: _ => []

theorem append_missingGroups_ne_nil (gs : List Group) : gs ++ missingGroups gs ≠ [] := by
  cases gs with
  | nil => exact List.cons_ne_nil _ _
  | cons g gs => exact List.cons_ne_nil _ _

theorem TotalsFit.append_missingGroups {gs : List Group} (h : TotalsFit gs 0) :
    TotalsFit (gs ++ missingGroups gs) 0 := by
  cases gs with
  | nil =>
    have hbounds : totalBounds [⟨.one, ⟨.one, .plus⟩⟩] 0 = some ⟨1, 1⟩ := by decide
    exact (totalBounds_eq_some_iff.mp hbounds).1
  | cons g gs =>
    rw [missingGroups, List.append_nil]
    exact h

namespace Tally

open Expression (flatItem)

/-- The items that complete a text: a zero with the sign at the end of the text, which need not be
one, two integers that bring the modifier to zero, and a die if there is none. The negative of the
modifier itself need not fit. -/
def completion (t : Tally) : List Item :=
  ⟨some t.nextSign, .flat (.ofNat 0)⟩ :: flatItem (-(t.flats.sum / 2)) ::
    flatItem (-(t.flats.sum - t.flats.sum / 2)) :: (missingGroups t.groups).map Group.item

variable (t : Tally)

theorem exists_sign_of_mem_completion : ∀ i ∈ t.completion, ∃ s, i.sign = some s := by
  simp only [completion, List.forall_mem_cons, List.forall_mem_map]
  exact ⟨⟨_, rfl⟩, ⟨_, rfl⟩, ⟨_, rfl⟩, fun g _ => ⟨g.die.sign, rfl⟩⟩

theorem filterMap_group?_completion :
    t.completion.filterMap Item.group? = missingGroups t.groups := by
  rw [completion, List.filterMap_cons_none rfl, List.filterMap_cons_none rfl,
    List.filterMap_cons_none rfl, Item.Writes.filterMap_group? (Item.Writes.forall₂_item _)]

theorem filterMap_flat?_completion :
    t.completion.filterMap Item.flat? =
      [0, -(t.flats.sum / 2), -(t.flats.sum - t.flats.sum / 2)] := by
  have hzero : Item.flat? ⟨some t.nextSign, .flat (.ofNat 0)⟩ = some 0 :=
    congrArg some (Int.zero_mul _)
  rw [completion, List.filterMap_cons_some hzero,
    List.filterMap_cons_some (Expression.flat?_flatItem _),
    List.filterMap_cons_some (Expression.flat?_flatItem _),
    Item.Writes.filterMap_flat? (Item.Writes.forall₂_item _)]

theorem inRange_completion (h : Fits t.flats.sum) : ∀ i ∈ t.completion, i.literal.InRange := by
  have hrange {x : Int} (hx : -9223372036854775807 ≤ x ∧ x ≤ 9223372036854775807) :
      (flatItem x).literal.InRange := by
    refine (Expression.inRange_flatItem_iff (Word.fits_iff.mpr ⟨by omega, hx.2⟩)).mpr ?_
    rw [Word.least]
    omega
  rw [Word.fits_iff] at h
  simp only [completion, List.forall_mem_cons]
  exact ⟨Nat.zero_le _, hrange (by omega), hrange (by omega),
    Item.Writes.forall_inRange (Item.Writes.forall₂_item _)⟩

theorem runningFits_completion (h : RunningFits 0 t.flats) :
    RunningFits 0 (t.flats ++ t.completion.filterMap Item.flat?) := by
  have hsum : Fits t.flats.sum := by simpa using h.fits_sum
  have hbounds := Word.fits_iff.mp hsum
  simp only [filterMap_flat?_completion, Word.runningFits_append, Word.runningFits_cons,
    Word.runningFits_nil, Int.zero_add, Int.add_zero]
  exact ⟨h, hsum, hsum, Word.fits_iff.mpr (by omega), Word.fits_iff.mpr (by omega)⟩

theorem sum_append_completion : (t.flats ++ t.completion.filterMap Item.flat?).sum = 0 := by
  rw [filterMap_flat?_completion, List.sum_append]
  simp only [List.sum_cons, List.sum_nil]
  omega

end Tally

namespace Opens

variable {items : List Item} {pending : Option Sign} {w : List Char} (h : Opens items pending w)

include h

/-- Items can be written behind a text if the first of them takes the sign at its end. -/
theorem exists_append (l : Literal) (items' : List Item) :
    ∃ v, w ++ v = (items ++ ⟨some (pending.getD .plus), l⟩ :: items').flatMap Item.chars := by
  have htext := h.text
  cases pending with
  | none => exact ⟨Sign.plus.char :: (l.chars ++ items'.flatMap Item.chars), by
      simp [← htext, Item.chars]⟩
  | some s => exact ⟨l.chars ++ items'.flatMap Item.chars, by simp [← htext, Item.chars]⟩

/-- A text without a fault can be completed if its groups have checked bounds. -/
theorem exists_parseCompact_append (hfit : TotalsFit (items.filterMap Item.group?) 0) :
    ∃ v e, Expression.parseCompact (w ++ v) = .ok e ∧ Text.compact (w ++ v) = w ++ v := by
  let t : Tally := ⟨items.filterMap Item.group?, items.filterMap Item.flat?, pending⟩
  obtain ⟨v, hv⟩ : ∃ v, w ++ v = (items ++ t.completion).flatMap Item.chars := h.exists_append _ _
  have hsigned := t.exists_sign_of_mem_completion
  have hchain : (items ++ t.completion).IsChain Item.Follows :=
    Item.isChain_append h.chain
      (Item.isChain_of_signed _ fun i hi => hsigned i (List.mem_cons_of_mem _ hi))
      fun i hi => hsigned i (List.mem_of_head? hi)
  have hrange : ∀ i ∈ items ++ t.completion, i.literal.InRange :=
    List.forall_mem_append.mpr ⟨h.inRange, t.inRange_completion (by simpa using h.flats.fits_sum)⟩
  have hflats : RunningFits 0 ((items ++ t.completion).filterMap Item.flat?) := by
    rw [List.filterMap_append]
    exact t.runningFits_completion h.flats
  refine ⟨v, ⟨t.groups ++ missingGroups t.groups, 0, append_missingGroups_ne_nil _,
    Word.fits_zero⟩, ?_, ?_⟩
  · rw [hv, Expression.parseCompact_of_runningFits hchain hrange hflats, List.filterMap_append,
      List.filterMap_append, t.filterMap_group?_completion, t.sum_append_completion,
      Expression.ofTerms_eq_ok_iff]
    exact ⟨rfl, hfit.append_missingGroups⟩
  · rw [hv]
    exact Item.compact_flatMap_chars _

/-- It cannot be completed otherwise. -/
theorem totalsFit_of_parseCompact_append {v : List Char} {e : Expression}
    (he : Expression.parseCompact (w ++ v) = .ok e) :
    TotalsFit (items.filterMap Item.group?) 0 := by
  obtain ⟨hclean, -, hgroups, -, hfit⟩ := Expression.parseCompact_eq_ok_iff.mp he
  obtain ⟨gs, hwidens, hfront⟩ := h.exists_widens hclean
  obtain ⟨rest, hrest⟩ := hgroups ▸ hfront
  rw [← hrest] at hfit
  exact hfit.of_append.of_widens hwidens

end Opens

namespace Expression

/-- The groups of the dice literals of a notation, whether it is accepted or not. -/
def writtenGroups (s : String) : List Group :=
  (Tally.of (Lexeme.cut (Text.compact s.toList))).groups

/-- A notation without a fault in its lexemes can be completed exactly when its groups have checked
bounds. -/
theorem exists_parse_append_iff {s : String} (h : Clean (Lexeme.cut (Text.compact s.toList))) :
    (∃ t e, parse (s ++ t) = .ok e) ↔ TotalsFit (writtenGroups s) 0 := by
  obtain ⟨items, pending, hopens⟩ := exists_opens h
  have happend (t : String) :
      Text.compact (s ++ t).toList = Text.compact s.toList ++ Text.compact t.toList := by
    rw [String.toList_append, Text.compact_append]
  rw [writtenGroups, hopens.tally_eq]
  constructor
  · rintro ⟨t, e, he⟩
    rw [parse, happend] at he
    exact hopens.totalsFit_of_parseCompact_append he
  · intro hfit
    obtain ⟨v, e, he, hcompact⟩ := hopens.exists_parseCompact_append hfit
    rw [Text.compact_append, Text.compact_compact] at hcompact
    refine ⟨String.ofList v, e, ?_⟩
    rwa [parse, happend, String.toList_ofList, hcompact]

/-- **What can follow a rejected notation.** A notation that is rejected for one of its lexemes is
rejected for the same lexeme whatever follows, unless the text behind it goes on with a digit or the
letter `d`. A notation that is rejected for one of the three faults at its end can be completed
exactly when its groups have checked bounds by themselves, or when it has none. -/
theorem parse_append_of_error {s : String} {r : Rejection} (h : parse s = .error r) :
    (r.slice = "" ↔
      r.cause = .danglingSign ∨ r.cause = .noDice ∨ r.cause = .totalOverflow) ∧
    (r.slice ≠ "" → ∀ t : String,
      (∀ c ∈ (Text.compact t.toList).head?, c.isDigit = false ∧ c ≠ 'd') →
        parse (s ++ t) = .error r) ∧
    (r.slice = "" →
      ((∃ t e, parse (s ++ t) = .ok e) ↔
        writtenGroups s = [] ∨ ∃ b, totalBounds (writtenGroups s) 0 = some b)) := by
  have hfault : FirstFault (Text.compact s.toList) r := parseCompact_eq_error_iff_firstFault.mp h
  refine ⟨hfault.slice_eq_empty_iff, fun hslice t ht => ?_, fun hslice => ?_⟩
  · rw [parse, parseCompact_eq_error_iff_firstFault, String.toList_append, Text.compact_append]
    exact hfault.append hslice ht
  · rw [exists_parse_append_iff (hfault.slice_eq_empty_iff_clean.mp hslice)]
    constructor
    · intro hfit
      exact .inr ⟨_, totalBounds_eq_some_iff.mpr ⟨hfit, rfl⟩⟩
    · rintro (hnil | ⟨b, hb⟩)
      · have hbounds : totalBounds [] 0 = some ⟨0, 0⟩ := by decide
        rw [hnil]
        exact (totalBounds_eq_some_iff.mp hbounds).1
      · exact (totalBounds_eq_some_iff.mp hb).1

/-- The greatest number of dice with the greatest number of sides. -/
def greatestGroup : Group :=
  ⟨⟨4294967295, by decide, by decide⟩, ⟨⟨4294967295, by decide, by decide⟩, .plus⟩⟩

/-- A stray character that stays at fault, a die whose modifier can be brought back, and dice for
which there is no help. -/
theorem parse_append_of_error_greatestGroup :
    parse "2d6+é" = .error ⟨.unreadable, 4, "é"⟩ ∧
    parse ("2d6+é" ++ "+d4") = .error ⟨.unreadable, 4, "é"⟩ ∧
    parse "d6+9223372036854775807" = .error ⟨.totalOverflow, 22, ""⟩ ∧
    (∃ t e, parse ("d6+9223372036854775807" ++ t) = .ok e) ∧
    parse "4294967295d4294967295" = .error ⟨.totalOverflow, 21, ""⟩ ∧
    ¬ ∃ t e, parse ("4294967295d4294967295" ++ t) = .ok e := by
  have hstray : parse "2d6+é" = .error ⟨.unreadable, 4, "é"⟩ := by cbv
  have hmodifier : parse "d6+9223372036854775807" = .error ⟨.totalOverflow, 22, ""⟩ := by cbv
  have hdice : parse "4294967295d4294967295" = .error ⟨.totalOverflow, 21, ""⟩ := by cbv
  have hplus : (Text.compact "+d4".toList).head? = some '+' := by cbv
  have hbounds : totalBounds (writtenGroups "d6+9223372036854775807") 0 = some ⟨1, 6⟩ := by cbv
  have hgroups : writtenGroups "4294967295d4294967295" = [greatestGroup] := by cbv
  have hnone : totalBounds [greatestGroup] 0 = none := by decide
  refine ⟨hstray, (parse_append_of_error hstray).2.1 (by decide) "+d4" fun c hc => ?_, hmodifier,
    ((parse_append_of_error hmodifier).2.2 rfl).mpr (.inr ⟨_, hbounds⟩), hdice, fun hsome => ?_⟩
  · rw [hplus] at hc
    cases hc
    decide
  · rcases ((parse_append_of_error hdice).2.2 rfl).mp hsome with hnil | ⟨b, hb⟩
    · rw [hgroups] at hnil
      cases hnil
    · rw [hgroups, hnone] at hb
      cases hb

end Expression

end DiceSum
