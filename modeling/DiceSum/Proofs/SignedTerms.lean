import DiceSum.Proofs.RoundTrip

/-!
# Rows of signed terms

If every term is written with its sign, terms in any order make up a notation. With literals in
range, what a row of them comes to is known from the groups and the integers alone: it is read if
the sums of the first integers fit, and otherwise rejected at the first that does not.

## Main definitions

* `DiceSum.SignedTerm` — a literal in range with its sign.
* `DiceSum.WrittenAs` — the notations of a row of signed terms.

## Main results

* `DiceSum.WrittenAs.parse_of_runningFits`, `DiceSum.WrittenAs.exists_parse_of_not_runningFits` —
  the outcome of reading a row of signed terms.
* `DiceSum.WrittenAs.parse_eq_ok_iff` — the rows that are accepted.
-/

namespace DiceSum

open Word (Fits RunningFits)

/-- A literal in range with its sign. -/
structure SignedTerm where
  sign : Sign
  literal : Literal
  inRange : literal.InRange

namespace SignedTerm

/-- A signed term as an item of a notation. -/
def item (t : SignedTerm) : Item := ⟨some t.sign, t.literal⟩

/-- The group that a term denotes, if it is a dice literal. -/
def group? (t : SignedTerm) : Option Group := t.item.group?

/-- The signed integer that a term denotes, if it is an integer literal. -/
def flat? (t : SignedTerm) : Option Int := t.item.flat?

/-- A dice literal with a sign. -/
def ofGroup (g : Group) : SignedTerm :=
  ⟨g.die.sign, g.literal, (Item.Writes.of_item g).inRange⟩

/-- An integer literal with a sign. -/
def ofFlat (s : Sign) (n : Nat) (h : n ≤ 9223372036854775807) : SignedTerm :=
  ⟨s, .flat (.ofNat n), (Numeral.value_ofNat n).trans_le h⟩

theorem inRange_of_mem_map_item {terms : List SignedTerm} {i : Item} (h : i ∈ terms.map item) :
    i.literal.InRange := by
  obtain ⟨t, -, rfl⟩ := List.mem_map.mp h
  exact t.inRange

theorem isChain_map_item (terms : List SignedTerm) :
    (terms.map item).IsChain Item.Follows := by
  cases terms with
  | nil => exact .nil
  | cons t terms =>
    refine Item.isChain_of_signed t.item fun j hj => ?_
    obtain ⟨u, -, rfl⟩ := List.mem_map.mp hj
    exact ⟨u.sign, rfl⟩

theorem filterMap_group?_map_item (terms : List SignedTerm) :
    (terms.map item).filterMap Item.group? = terms.filterMap group? :=
  List.filterMap_map

theorem filterMap_flat?_map_item (terms : List SignedTerm) :
    (terms.map item).filterMap Item.flat? = terms.filterMap flat? :=
  List.filterMap_map

end SignedTerm

/-- The notation `s` is the row of the signed terms `terms`, perhaps with blanks in it. -/
def WrittenAs (terms : List SignedTerm) (s : String) : Prop :=
  Text.compact s.toList = (terms.map SignedTerm.item).flatMap Item.chars

namespace WrittenAs

open Expression (parse)

variable {terms : List SignedTerm} {s : String} (h : WrittenAs terms s)

include h

/-- A row of signed terms is read to its end if the sums of its first integers fit. -/
theorem parse_of_runningFits (hrun : RunningFits 0 (terms.filterMap SignedTerm.flat?)) :
    parse s = Expression.ofTerms (Lexeme.utf8Size (Text.compact s.toList))
      ⟨terms.filterMap SignedTerm.group?, (terms.filterMap SignedTerm.flat?).sum⟩ := by
  rw [← SignedTerm.filterMap_flat?_map_item] at hrun ⊢
  rw [parse, h, ← SignedTerm.filterMap_group?_map_item]
  exact Expression.parseCompact_of_runningFits (SignedTerm.isChain_map_item terms)
    (fun i => SignedTerm.inRange_of_mem_map_item) hrun

/-- Otherwise it is rejected at the first integer that takes the sum out of the range. -/
theorem exists_parse_of_not_runningFits
    (hrun : ¬ RunningFits 0 (terms.filterMap SignedTerm.flat?)) :
    ∃ front i, Item.FirstOverflow 0 (terms.map SignedTerm.item) front i ∧
      parse s = .error ⟨.modifierOverflow, Lexeme.utf8Size (Item.textBefore front i),
        String.ofList i.literal.chars⟩ := by
  rw [← SignedTerm.filterMap_flat?_map_item] at hrun
  obtain ⟨front, i, hfirst⟩ := Item.exists_firstOverflow Word.fits_zero hrun
  refine ⟨front, i, hfirst, ?_⟩
  rw [parse, h]
  exact Expression.parseCompact_of_firstOverflow (SignedTerm.isChain_map_item terms)
    (fun i => SignedTerm.inRange_of_mem_map_item) hfirst

/-- A row of signed terms is accepted exactly when the sums of its first integers and its totals
fit. -/
theorem parse_eq_ok_iff {e : Expression} :
    parse s = .ok e ↔ RunningFits 0 (terms.filterMap SignedTerm.flat?) ∧
      terms.filterMap SignedTerm.group? = e.groups ∧
      (terms.filterMap SignedTerm.flat?).sum = e.modifier ∧ TotalsFit e.groups e.modifier := by
  by_cases hrun : RunningFits 0 (terms.filterMap SignedTerm.flat?)
  · rw [h.parse_of_runningFits hrun, Expression.ofTerms_eq_ok_iff, Terms.mk.injEq, and_assoc]
    exact (and_iff_right hrun).symm
  · obtain ⟨front, i, -, hparse⟩ := h.exists_parse_of_not_runningFits hrun
    rw [hparse]
    exact iff_of_false (fun hok => nomatch hok) fun hok => hrun hok.1

end WrittenAs

end DiceSum
