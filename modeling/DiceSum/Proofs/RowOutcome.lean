import DiceSum.Proofs.Grammar

/-!
# The outcome of a row of items

A row of items with literals in range has no fault in a single literal, and none in its signs. What
is left is the sum of its integers: if it leaves the range on the way, the row is rejected at the
integer with which it does so first. Otherwise the row is read to its end, and only its groups and
its modifier matter from there on.

## Main definitions

* `DiceSum.Item.FirstOverflow` — the integer of a row with which the sum first leaves the range.
* `DiceSum.Item.textBefore` — the text in front of the literal of an item.

## Main results

* `DiceSum.Item.exists_firstOverflow`, `DiceSum.Item.FirstOverflow.eq` — there is exactly one such
  integer if the sums of the first integers do not all fit.
* `DiceSum.Expression.parseCompact_of_runningFits`,
  `DiceSum.Expression.parseCompact_of_firstOverflow` — the outcome in the two cases.
-/

namespace DiceSum

open Word (Fits RunningFits)

variable {items front : List Item} {i : Item} {start : Int}

/-! ### The first integer that leaves the range -/

namespace Item

/-- The text of a row of items up to the literal of `i`, where `front` are the items before `i`. -/
def textBefore (front : List Item) (i : Item) : List Char :=
  front.flatMap chars ++ (i.sign.map Sign.char).toList

/-- When the integers of a row are added to `start` one by one, the integer of `i` is the first with
which the sum leaves the range. The items `front` are those before `i`. -/
structure FirstOverflow (start : Int) (items front : List Item) (i : Item) : Prop where
  exists_split : ∃ back, items = front ++ i :: back
  fits : RunningFits start (front.filterMap flat?)
  overflow : ∃ x ∈ i.flat?, ¬ Fits (start + (front.filterMap flat?).sum + x)

theorem exists_firstOverflow (hstart : Fits start)
    (h : ¬ RunningFits start (items.filterMap flat?)) :
    ∃ front i, FirstOverflow start items front i := by
  induction items using List.reverseRecOn with
  | nil => exact absurd (Word.runningFits_nil.mpr hstart) h
  | append_singleton items i ih =>
    by_cases hitems : RunningFits start (items.filterMap flat?)
    · rw [List.filterMap_append, filterMap_singleton, Word.runningFits_append,
        Word.runningFits_toList] at h
      simp only [hitems, hitems.fits_sum, true_and, not_forall] at h
      obtain ⟨x, hx, hfits⟩ := h
      exact ⟨items, i, ⟨[], rfl⟩, hitems, x, hx, hfits⟩
    · obtain ⟨front, j, hj⟩ := ih hitems
      obtain ⟨back, rfl⟩ := hj.exists_split
      exact ⟨front, j, ⟨back ++ [i], by simp⟩, hj.fits, hj.overflow⟩

namespace FirstOverflow

/-- No row that goes on from there has sums that fit. -/
theorem not_runningFits (h : FirstOverflow start items front i) (back : List Item) :
    ¬ RunningFits start ((front ++ i :: back).filterMap flat?) := by
  obtain ⟨x, hx, hfits⟩ := h.overflow
  intro hrun
  rw [List.filterMap_append, List.filterMap_cons_some hx, Word.runningFits_append,
    Word.runningFits_cons] at hrun
  exact hfits hrun.2.2.fits_start

theorem not_runningFits_row (h : FirstOverflow start items front i) :
    ¬ RunningFits start (items.filterMap flat?) := by
  obtain ⟨back, rfl⟩ := h.exists_split
  exact h.not_runningFits back

theorem eq {front' : List Item} {i' : Item} (h : FirstOverflow start items front i)
    (h' : FirstOverflow start items front' i') : front = front' ∧ i = i' := by
  obtain ⟨back, hback⟩ := h.exists_split
  obtain ⟨back', hback'⟩ := h'.exists_split
  -- If one of the two came first, the sums in front of the other would not fit.
  rcases List.append_eq_append_iff.mp (hback.symm.trans hback') with
    ⟨_ | ⟨j, mid⟩, hfront, hrest⟩ | ⟨_ | ⟨j, mid⟩, hfront, hrest⟩
  · exact ⟨by simpa using hfront.symm, (List.cons.inj hrest).1⟩
  · obtain ⟨rfl, -⟩ := List.cons.inj hrest
    exact absurd (hfront ▸ h'.fits) (h.not_runningFits mid)
  · exact ⟨by simpa using hfront, (List.cons.inj hrest).1.symm⟩
  · obtain ⟨rfl, -⟩ := List.cons.inj hrest
    exact absurd (hfront ▸ h.fits) (h'.not_runningFits mid)

/-- Items in front of a row, whose sums fit, only change the sum with which the row starts. -/
theorem prepend {before : List Item} (hbefore : RunningFits start (before.filterMap flat?))
    (h : FirstOverflow (start + (before.filterMap flat?).sum) items front i) :
    FirstOverflow start (before ++ items) (before ++ front) i := by
  obtain ⟨back, rfl⟩ := h.exists_split
  refine ⟨⟨back, (List.append_assoc ..).symm⟩, ?_, ?_⟩
  · rw [List.filterMap_append, Word.runningFits_append]
    exact ⟨hbefore, h.fits⟩
  · rw [List.filterMap_append, List.sum_append, ← Int.add_assoc]
    exact h.overflow

end FirstOverflow

theorem textBefore_append (before front : List Item) (i : Item) :
    textBefore (before ++ front) i = before.flatMap chars ++ textBefore front i := by
  rw [textBefore, textBefore, List.flatMap_append, List.append_assoc]

end Item

/-! ### The two cases -/

/-- An integer literal in range is a fault if its integer takes the sum out of the range. -/
theorem Tally.fault_lexeme {t : Tally} {l : Literal} {x : Int} (hl : l.InRange)
    (hx : x ∈ Item.flat? ⟨t.pending, l⟩) (hfits : ¬ Fits (t.flats.sum + x)) :
    t.Fault l.lexeme .modifierOverflow := by
  cases l with
  | dice count sides => cases hx
  | flat value =>
    cases hx
    exact .modifierOverflow (Literal.token_flat hl) hfits

theorem flatMap_text_sign (p : Option Sign) :
    (p.map Lexeme.sign).toList.flatMap Lexeme.text = (p.map Sign.char).toList := by
  cases p <;> rfl

namespace Expression

/-- A row of items in range is read to its end if the sums of its first integers fit. -/
theorem parseCompact_of_runningFits (hchain : items.IsChain Item.Follows)
    (hrange : ∀ i ∈ items, i.literal.InRange)
    (h : RunningFits 0 (items.filterMap Item.flat?)) :
    parseCompact (items.flatMap Item.chars) =
      ofTerms (Lexeme.utf8Size (items.flatMap Item.chars))
        ⟨items.filterMap Item.group?, (items.filterMap Item.flat?).sum⟩ := by
  have hread : Terms.read 0 none 0 (Lexeme.cut (items.flatMap Item.chars)) =
      .ok ⟨items.filterMap Item.group?, (items.filterMap Item.flat?).sum⟩ := by
    rw [Terms.read_eq_ok_iff, Item.cut_flatMap_chars hchain, clean_items_iff,
      Tally.of_items hrange]
    exact ⟨⟨hrange, h⟩, rfl, rfl⟩
  rw [parseCompact, hread]
  rfl

/-- A row of items in range is rejected at the first integer that takes the sum out of the
range. -/
theorem parseCompact_of_firstOverflow (hchain : items.IsChain Item.Follows)
    (hrange : ∀ i ∈ items, i.literal.InRange) (h : Item.FirstOverflow 0 items front i) :
    parseCompact (items.flatMap Item.chars) =
      .error ⟨.modifierOverflow, Lexeme.utf8Size (Item.textBefore front i),
        String.ofList i.literal.chars⟩ := by
  obtain ⟨back, rfl⟩ := h.exists_split
  obtain ⟨x, hx, hfits⟩ := h.overflow
  rw [Int.zero_add] at hfits
  rw [List.forall_mem_append, List.forall_mem_cons] at hrange
  have hpending : (Tally.of (front.flatMap Item.lexemes)).pending = none := by
    rw [Tally.of_items hrange.1]
  have hfront : Clean (front.flatMap Item.lexemes ++ (i.sign.map Lexeme.sign).toList) :=
    (clean_append_sign hpending i.sign).mpr (clean_items_iff.mpr ⟨hrange.1, h.fits⟩)
  have hfault : (Tally.of (front.flatMap Item.lexemes ++ (i.sign.map Lexeme.sign).toList)).Fault
      i.literal.lexeme .modifierOverflow := by
    rw [Tally.of_append_sign hpending, Tally.of_items hrange.1]
    exact Tally.fault_lexeme hrange.2.1 hx hfits
  have hlexemes : (front ++ i :: back).flatMap Item.lexemes =
      (front.flatMap Item.lexemes ++ (i.sign.map Lexeme.sign).toList) ++
        i.literal.lexeme :: back.flatMap Item.lexemes := by
    simp [Item.lexemes]
  rw [parseCompact, Item.cut_flatMap_chars hchain, hlexemes, Terms.read_of_fault hfront hfault,
    Terms.reject, Except.bind, List.flatMap_append, Item.flatMap_text_flatMap_lexemes,
    flatMap_text_sign, Literal.text_lexeme, Item.textBefore]

end Expression

end DiceSum
