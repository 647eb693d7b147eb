import DiceSum.Proofs.SignedTerms

/-!
# Signed terms in another order

The groups of a notation do not depend on where its integers stand, nor the modifier on where its
dice literals stand. So if signed terms are put in another order, where the dice literals keep
theirs among themselves and so do the integers, reading comes to the same outcome: the same
expression, or the same fault at the same text, whose position may be another. If the integers are
permuted as well, they still add up to the same modifier, but the sum may leave the range on its way
in one order and not in the other.

## Main definitions

* `DiceSum.SameOutcome` — outcomes that differ at most in a position.
* `DiceSum.diceTerms`, `DiceSum.flatTerms` — the terms of either kind, in their order.

## Main results

* `DiceSum.Item.FirstOverflow.filter` — the other items have no part in the first overflow.
* `DiceSum.WrittenAs.parse_of_perm` — the notations of terms in two orders.
-/

namespace DiceSum

open Word (Fits RunningFits)

/-- Two outcomes of reading are the same up to the position of a fault. -/
inductive SameOutcome : Except Rejection Expression → Except Rejection Expression → Prop
  | ok (e : Expression) : SameOutcome (.ok e) (.ok e)
  | error {r r' : Rejection} (hcause : r.cause = r'.cause) (hslice : r.slice = r'.slice) :
      SameOutcome (.error r) (.error r')

theorem sameOutcome_ofTerms (size size' : Nat) (t : Terms) :
    SameOutcome (Expression.ofTerms size t) (Expression.ofTerms size' t) := by
  rw [Expression.ofTerms, Expression.ofTerms]
  split
  · exact .error rfl rfl
  · split
    · exact .error rfl rfl
    · exact .ok _

/-! ### Terms of one kind -/

theorem filterMap_filter_of_none {α β : Type} {f : α → Option β} {p : α → Bool}
    (h : ∀ a, p a = false → f a = none) (l : List α) :
    (l.filter p).filterMap f = l.filterMap f := by
  rw [List.filterMap_filter]
  refine congrArg (List.filterMap · l) (funext fun a => ?_)
  cases ha : p a with
  | true => rfl
  | false => exact (h a ha).symm

/-- The integer of a row that leaves the range first does so too without the other items. -/
theorem Item.FirstOverflow.filter {start : Int} {items front : List Item} {i : Item}
    {p : Item → Bool} (hp : ∀ j, p j = false → j.flat? = none)
    (h : FirstOverflow start items front i) :
    FirstOverflow start (items.filter p) (front.filter p) i := by
  obtain ⟨back, rfl⟩ := h.exists_split
  obtain ⟨x, hx, hfits⟩ := h.overflow
  have hi : p i = true := by
    by_contra hi
    rw [hp i (Bool.not_eq_true _ ▸ hi)] at hx
    cases hx
  refine ⟨⟨back.filter p, ?_⟩, ?_, x, hx, ?_⟩
  · rw [List.filter_append, List.filter_cons_of_pos hi]
  · rw [filterMap_filter_of_none hp]
    exact h.fits
  · rwa [filterMap_filter_of_none hp]

/-- A literal of a number of dice. -/
def Literal.isDice : Literal → Bool
  | dice _ _ => true
  | flat _ => false

/-- The dice literals of a row of signed terms, in their order. -/
def diceTerms (terms : List SignedTerm) : List SignedTerm :=
  terms.filter fun t => t.literal.isDice

/-- The integer literals of a row of signed terms, in their order. -/
def flatTerms (terms : List SignedTerm) : List SignedTerm :=
  terms.filter fun t => !t.literal.isDice

theorem Item.flat?_of_isDice {i : Item} (h : (!i.literal.isDice) = false) : i.flat? = none := by
  obtain ⟨sign, ⟨count, sides⟩ | value⟩ := i
  · rfl
  · cases h

theorem Item.group?_of_not_isDice {i : Item} (h : i.literal.isDice = false) : i.group? = none := by
  obtain ⟨sign, ⟨count, sides⟩ | value⟩ := i
  · cases h
  · rfl

variable {terms terms' : List SignedTerm}

theorem filterMap_group?_diceTerms (terms : List SignedTerm) :
    (diceTerms terms).filterMap SignedTerm.group? = terms.filterMap SignedTerm.group? :=
  filterMap_filter_of_none (fun _ => Item.group?_of_not_isDice) terms

theorem filterMap_flat?_flatTerms (terms : List SignedTerm) :
    (flatTerms terms).filterMap SignedTerm.flat? = terms.filterMap SignedTerm.flat? :=
  filterMap_filter_of_none (fun _ => Item.flat?_of_isDice) terms

theorem filterMap_group?_eq (h : diceTerms terms = diceTerms terms') :
    terms.filterMap SignedTerm.group? = terms'.filterMap SignedTerm.group? := by
  rw [← filterMap_group?_diceTerms, h, filterMap_group?_diceTerms]

theorem filterMap_flat?_eq (h : flatTerms terms = flatTerms terms') :
    terms.filterMap SignedTerm.flat? = terms'.filterMap SignedTerm.flat? := by
  rw [← filterMap_flat?_flatTerms, h, filterMap_flat?_flatTerms]

theorem map_item_flatTerms (terms : List SignedTerm) :
    (flatTerms terms).map SignedTerm.item =
      (terms.map SignedTerm.item).filter fun i => !i.literal.isDice := by
  rw [List.filter_map]
  rfl

/-! ### Two orders -/

namespace WrittenAs

open Expression (parse)

variable {s s' : String}

/-- Terms with the same dice literals and the same integers, in the same orders, have the same
outcome. -/
theorem sameOutcome (h : WrittenAs terms s) (h' : WrittenAs terms' s')
    (hdice : diceTerms terms = diceTerms terms') (hflat : flatTerms terms = flatTerms terms') :
    SameOutcome (parse s) (parse s') := by
  have hgroups := filterMap_group?_eq hdice
  have hflats := filterMap_flat?_eq hflat
  by_cases hrun : RunningFits 0 (terms.filterMap SignedTerm.flat?)
  · rw [h.parse_of_runningFits hrun, h'.parse_of_runningFits (hflats ▸ hrun), hgroups, hflats]
    exact sameOutcome_ofTerms _ _ _
  · obtain ⟨front, i, hfirst, hparse⟩ := h.exists_parse_of_not_runningFits hrun
    obtain ⟨front', i', hfirst', hparse'⟩ := h'.exists_parse_of_not_runningFits (hflats ▸ hrun)
    -- Without the dice literals the two rows are the same, so that the integer is.
    have hflatFirst := hfirst.filter fun _ => Item.flat?_of_isDice
    have hflatFirst' := hfirst'.filter fun _ => Item.flat?_of_isDice
    rw [← map_item_flatTerms] at hflatFirst hflatFirst'
    rw [← hflat] at hflatFirst'
    rw [hparse, hparse', (hflatFirst.eq hflatFirst').2]
    exact .error rfl rfl

theorem eq_of_parse_of_perm (h : WrittenAs terms s) (h' : WrittenAs terms' s')
    (hperm : terms.Perm terms') (hdice : diceTerms terms = diceTerms terms') {e e' : Expression}
    (he : parse s = .ok e) (he' : parse s' = .ok e') : e = e' := by
  obtain ⟨-, hgroups, hmodifier, -⟩ := h.parse_eq_ok_iff.mp he
  obtain ⟨-, hgroups', hmodifier', -⟩ := h'.parse_eq_ok_iff.mp he'
  refine Expression.eq_of_parts ?_ ?_
  · rw [← hgroups, ← hgroups', filterMap_group?_eq hdice]
  · rw [← hmodifier, ← hmodifier']
    exact (hperm.filterMap SignedTerm.flat?).sum_eq

/-- If one order is accepted, the other can only fail on the way of its integers. -/
theorem cause_of_perm (h : WrittenAs terms s) (h' : WrittenAs terms' s')
    (hperm : terms.Perm terms') (hdice : diceTerms terms = diceTerms terms') {e : Expression}
    {r : Rejection} (he : parse s = .ok e) (hr : parse s' = .error r) :
    r.cause = .modifierOverflow := by
  obtain ⟨-, hgroups, hmodifier, hfit⟩ := h.parse_eq_ok_iff.mp he
  by_cases hrun : RunningFits 0 (terms'.filterMap SignedTerm.flat?)
  · have he' : parse s' = .ok e := by
      refine h'.parse_eq_ok_iff.mpr ⟨hrun, ?_, ?_, hfit⟩
      · rw [← filterMap_group?_eq hdice, hgroups]
      · rw [← hmodifier]
        exact (hperm.symm.filterMap SignedTerm.flat?).sum_eq
    rw [he'] at hr
    cases hr
  · obtain ⟨front, i, -, hparse⟩ := h'.exists_parse_of_not_runningFits hrun
    rw [hparse] at hr
    cases hr
    rfl

/-- **Signed terms in two orders**, in which the dice literals have the same order among themselves.
If the integers have too, the outcome is the same. If they have not, the notations still mean the
same expression where both are accepted, and one is rejected where the other is accepted only for
its modifier. -/
theorem parse_of_perm (h : WrittenAs terms s) (h' : WrittenAs terms' s')
    (hperm : terms.Perm terms') (hdice : diceTerms terms = diceTerms terms') :
    (flatTerms terms = flatTerms terms' → SameOutcome (parse s) (parse s')) ∧
    (∀ e e', parse s = .ok e → parse s' = .ok e' → e = e') ∧
    (∀ e r, parse s = .ok e → parse s' = .error r → r.cause = .modifierOverflow) ∧
    ∀ e r, parse s' = .ok e → parse s = .error r → r.cause = .modifierOverflow :=
  ⟨h.sameOutcome h' hdice, fun _ _ => h.eq_of_parse_of_perm h' hperm hdice,
    fun _ _ => h.cause_of_perm h' hperm hdice,
    fun _ _ => h'.cause_of_perm h hperm.symm hdice.symm⟩

/-- A die of one side, almost the greatest word, and two that is added and taken off again. -/
def aboveAndBack : List SignedTerm :=
  [.ofGroup ⟨.one, ⟨.one, .plus⟩⟩, .ofFlat .plus 9223372036854775806 (by decide),
    .ofFlat .plus 2 (by decide), .ofFlat .minus 2 (by decide)]

/-- The die can stand behind the integers, and the fault is the same. If two is taken off first,
there is none. -/
theorem parse_of_perm_aboveAndBack :
    parse "+1d1 +9223372036854775806 +2 -2" = .error ⟨.modifierOverflow, 25, "2"⟩ ∧
    parse "+9223372036854775806 +2 -2 +1d1" = .error ⟨.modifierOverflow, 21, "2"⟩ ∧
    SameOutcome (parse "+1d1 +9223372036854775806 +2 -2")
      (parse "+9223372036854775806 +2 -2 +1d1") ∧
    ∃ e, parse "-2 +2 +9223372036854775806 +1d1" = .ok e ∧
      ∀ r, parse "+1d1 +9223372036854775806 +2 -2" = .error r → r.cause = .modifierOverflow := by
  have hfront : WrittenAs aboveAndBack "+1d1 +9223372036854775806 +2 -2" := by
    rw [WrittenAs]
    cbv
  have hbehind : WrittenAs (aboveAndBack.drop 1 ++ aboveAndBack.take 1)
      "+9223372036854775806 +2 -2 +1d1" := by
    rw [WrittenAs]
    cbv
  have hreverse : WrittenAs aboveAndBack.reverse "-2 +2 +9223372036854775806 +1d1" := by
    rw [WrittenAs]
    cbv
  obtain ⟨e, he⟩ : ∃ e, parse "-2 +2 +9223372036854775806 +1d1" = .ok e := ⟨_, by cbv⟩
  refine ⟨by cbv, by cbv, (parse_of_perm hfront hbehind ?_ rfl).1 rfl, e, he, fun r hr => ?_⟩
  · exact @List.perm_append_comm _ (aboveAndBack.take 1) (aboveAndBack.drop 1)
  · exact (parse_of_perm hfront hreverse aboveAndBack.reverse_perm.symm rfl).2.2.2 e r he hr

end WrittenAs

end DiceSum
