import DiceSum.Proofs.DrawOrder
import DiceSum.Proofs.SignedTerms

/-!
# Notations with all signs flipped

If every sign of a row of signed terms is flipped, the same dice take the same samples and show the
negative faces, so that every roll and every total is negated and the least total changes places
with the greatest. Both notations are accepted or rejected alike, but for one word: the least one
has no negative. A notation that is accepted loses this by the flip exactly when the least word is
among its sums on the way, namely those of its integers, the least ones of its groups, and its least
total. The greatest sums need not be looked at, since none of them can be the least word if the
least sum after the same groups is not.

## Main definitions

* `DiceSum.Sign.flip`, `DiceSum.Die.flip`, `DiceSum.Group.flip`, `DiceSum.SignedTerm.flip` — the
  other sign.
* `DiceSum.Expression.Opposite` — expressions of the same dice with opposite signs.
* `DiceSum.MeetsLeast` — the least word is among the sums on the way.

## Main results

* `DiceSum.Expression.Opposite.exists_totalBounds`, `DiceSum.Expression.Opposite.faces_roll`,
  `DiceSum.Expression.Opposite.total_roll` — the bounds and the rolls of opposite expressions.
* `DiceSum.TotalsFit.flip_iff` — the check of the totals with all signs flipped.
* `DiceSum.WrittenAs.parse_of_flip` — the two notations.
-/

namespace DiceSum

open Word (Fits RunningFits)

/-! ### The other sign -/

/-- The other sign. -/
def Sign.flip : Sign → Sign
  | plus => minus
  | minus => plus

/-- The die with the other sign. -/
def Die.flip (d : Die) : Die := { d with sign := d.sign.flip }

/-- The group with the other sign. -/
def Group.flip (g : Group) : Group := { g with die := g.die.flip }

/-- The throw of the die with the other sign, with the same sample. -/
def Throw.flip (t : Throw) : Throw := { t with die := t.die.flip }

/-- The term with the other sign. -/
def SignedTerm.flip (t : SignedTerm) : SignedTerm := { t with sign := t.sign.flip }

@[simp] theorem Sign.apply_flip (s : Sign) (x : Int) : s.flip.apply x = -s.apply x := by
  cases s with
  | plus => rw [flip, apply_minus, apply_plus]
  | minus => rw [flip, apply_minus, apply_plus, Int.neg_neg]

@[simp] theorem Throw.signedFace_flip (t : Throw) : t.flip.signedFace = -t.signedFace :=
  t.die.sign.apply_flip t.face

namespace Group

@[simp] theorem low_flip (g : Group) : g.flip.low = -g.high := by
  obtain ⟨count, sides, sign⟩ := g
  cases sign with
  | plus => rfl
  | minus => exact (Int.neg_neg _).symm

@[simp] theorem high_flip (g : Group) : g.flip.high = -g.low := by
  obtain ⟨count, sides, sign⟩ := g
  cases sign with
  | plus => rfl
  | minus => exact (Int.neg_neg _).symm

theorem dice_flip (g : Group) : g.flip.dice = g.dice.map Die.flip := by
  rw [dice, dice, List.map_replicate]
  rfl

theorem map_low_map_flip (groups : List Group) :
    (groups.map flip).map low = (groups.map high).map fun x => -x := by
  simp only [List.map_map, Function.comp_def, low_flip]

theorem map_high_map_flip (groups : List Group) :
    (groups.map flip).map high = (groups.map low).map fun x => -x := by
  simp only [List.map_map, Function.comp_def, high_flip]

theorem low_total_flip (groups : List Group) (modifier : Int) :
    ((groups.map flip).map low).sum + -modifier = -((groups.map high).sum + modifier) := by
  rw [map_low_map_flip, ← List.sum_neg, Int.neg_add]

theorem high_total_flip (groups : List Group) (modifier : Int) :
    ((groups.map flip).map high).sum + -modifier = -((groups.map low).sum + modifier) := by
  rw [map_high_map_flip, ← List.sum_neg, Int.neg_add]

end Group

namespace SignedTerm

theorem group?_flip (t : SignedTerm) : t.flip.group? = t.group?.map Group.flip := by
  obtain ⟨sign, ⟨count, sides⟩ | value, hrange⟩ := t
  · simp only [group?, item, Item.group?, flip]
    cases Quantity.ofCount? count <;> cases Quantity.ofNat? sides.value <;> rfl
  · rfl

theorem flat?_flip (t : SignedTerm) : t.flip.flat? = t.flat?.map fun x => -x := by
  obtain ⟨sign, ⟨count, sides⟩ | value, hrange⟩ := t
  · rfl
  · exact congrArg some (sign.apply_flip value.value)

theorem filterMap_group?_map_flip (terms : List SignedTerm) :
    (terms.map flip).filterMap group? = (terms.filterMap group?).map Group.flip := by
  simp only [List.filterMap_map, List.map_filterMap, Function.comp_def, group?_flip]

theorem filterMap_flat?_map_flip (terms : List SignedTerm) :
    (terms.map flip).filterMap flat? = (terms.filterMap flat?).map fun x => -x := by
  simp only [List.filterMap_map, List.map_filterMap, Function.comp_def, flat?_flip]

theorem sum_flat?_map_flip (terms : List SignedTerm) :
    ((terms.map flip).filterMap flat?).sum = -(terms.filterMap flat?).sum := by
  rw [filterMap_flat?_map_flip, List.sum_neg]

end SignedTerm

/-! ### The check of the totals -/

/-- The least word is one of the integers that are met when the integers `flats` and the least sums
of the groups are added up. -/
def MeetsLeast (groups : List Group) (flats : List Int) : Prop :=
  (∃ n, (flats.take n).sum = Word.least) ∨
  (∃ n, ((groups.map Group.low).take n).sum = Word.least) ∨
  (groups.map Group.low).sum + flats.sum = Word.least

variable {groups : List Group} {flats : List Int} {modifier : Int}

theorem not_meetsLeast_iff :
    ¬ MeetsLeast groups flats ↔ (∀ n, (flats.take n).sum ≠ Word.least) ∧
      (∀ n, ((groups.map Group.low).take n).sum ≠ Word.least) ∧
      (groups.map Group.low).sum + flats.sum ≠ Word.least := by
  rw [MeetsLeast, not_or, not_or, not_exists, not_exists]

/-- Totals that fit still do with all signs flipped exactly when none of the least sums is the least
word. -/
theorem TotalsFit.flip_iff (h : TotalsFit groups modifier) :
    TotalsFit (groups.map Group.flip) (-modifier) ↔
      (∀ n, ((groups.map Group.low).take n).sum ≠ Word.least) ∧
      (groups.map Group.low).sum + modifier ≠ Word.least := by
  have hlow : RunningFits 0 ((groups.map Group.flip).map Group.low) ↔
      ∀ n, ((groups.map Group.high).take n).sum ≠ Word.least := by
    rw [Group.map_low_map_flip]
    exact Word.runningFits_map_neg_iff h.high
  have hhigh : RunningFits 0 ((groups.map Group.flip).map Group.high) ↔
      ∀ n, ((groups.map Group.low).take n).sum ≠ Word.least := by
    rw [Group.map_high_map_flip]
    exact Word.runningFits_map_neg_iff h.low
  have hlowTotal : Fits (((groups.map Group.flip).map Group.low).sum + -modifier) ↔
      (groups.map Group.high).sum + modifier ≠ Word.least := by
    rw [Group.low_total_flip]
    exact Word.fits_neg_iff h.high_total
  have hhighTotal : Fits (((groups.map Group.flip).map Group.high).sum + -modifier) ↔
      (groups.map Group.low).sum + modifier ≠ Word.least := by
    rw [Group.high_total_flip]
    exact Word.fits_neg_iff h.low_total
  constructor
  · intro hflip
    exact ⟨hhigh.mp hflip.high, hhighTotal.mp hflip.high_total⟩
  · rintro ⟨hrun, htotal⟩
    -- A greatest sum that is the least word leaves no room for another least sum.
    refine ⟨?_, hlow.mpr fun n => ?_, hhigh.mpr hrun, hlowTotal.mpr ?_, hhighTotal.mpr htotal⟩
    · exact List.forall_mem_map.mpr h.span
    · have hle := sum_low_le_sum_high (groups.take n)
      rw [List.map_take, List.map_take] at hle
      exact Word.ne_least_of_le (by simpa using h.low n) hle (hrun n)
    · exact Word.ne_least_of_le h.low_total
        (Int.add_le_add_right (sum_low_le_sum_high groups) modifier) htotal

/-! ### Opposite expressions -/

theorem throwAll_map_flip {σ : Type} [Source σ] (dice : List Die) (source : σ) :
    throwAll (dice.map Die.flip) source =
      ((throwAll dice source).1.map Throw.flip, (throwAll dice source).2) := by
  induction dice generalizing source with
  | nil => rfl
  | cons d dice ih =>
    rw [List.map_cons, throwAll_cons, throwAll_cons, ih, List.map_cons, Throw.flip]

namespace Expression

/-- The expression `e'` has the dice of `e` and opposite signs, also that of the modifier. -/
structure Opposite (e e' : Expression) : Prop where
  groups : e'.groups = e.groups.map Group.flip
  modifier : e'.modifier = -e.modifier

namespace Opposite

variable {e e' : Expression} (h : e.Opposite e')

include h

/-- The least total changes places with the greatest. -/
theorem exists_totalBounds (hfit : TotalsFit e.groups e.modifier)
    (hfit' : TotalsFit e'.groups e'.modifier) :
    ∃ b, totalBounds e.groups e.modifier = some b ∧
      totalBounds e'.groups e'.modifier = some ⟨-b.high, -b.low⟩ := by
  refine ⟨_, totalBounds_eq_some_iff.mpr ⟨hfit, rfl⟩, totalBounds_eq_some_iff.mpr ⟨hfit', ?_⟩⟩
  rw [h.groups, h.modifier, Group.low_total_flip, Group.high_total_flip]

theorem dice_eq : e'.dice = e.dice.map Die.flip := by
  simp only [dice, h.groups, List.flatMap_map, List.map_flatMap, Group.dice_flip]

variable {σ : Type} [Source σ] (source : σ)

/-- On the same samples every signed face is negated. -/
theorem faces_roll : (e'.roll source).1.value.faces =
    (e.roll source).1.value.faces.map fun x => -x := by
  simp only [Expression.faces_roll, h.dice_eq, throwAll_map_flip, List.map_map, Function.comp_def,
    Throw.signedFace_flip]

theorem total_roll : (e'.roll source).1.value.total = -(e.roll source).1.value.total := by
  rw [Roll.total_eq, Roll.total_eq, h.faces_roll, modifier_roll, modifier_roll, h.modifier,
    ← List.sum_neg, Int.neg_add]

theorem state_roll : (e'.roll source).2 = (e.roll source).2 := by
  rw [roll_eq, roll_eq, h.dice_eq, throwAll_map_flip]

end Opposite

end Expression

/-! ### Notations -/

namespace WrittenAs

open Expression (parse)

variable {terms : List SignedTerm} {s s' : String} {e e' : Expression}

theorem opposite_of_parse (h : WrittenAs terms s) (h' : WrittenAs (terms.map SignedTerm.flip) s')
    (he : parse s = .ok e) (he' : parse s' = .ok e') : e.Opposite e' := by
  obtain ⟨-, hgroups, hmodifier, -⟩ := h.parse_eq_ok_iff.mp he
  obtain ⟨-, hgroups', hmodifier', -⟩ := h'.parse_eq_ok_iff.mp he'
  rw [SignedTerm.filterMap_group?_map_flip, hgroups] at hgroups'
  rw [SignedTerm.sum_flat?_map_flip, hmodifier] at hmodifier'
  exact ⟨hgroups'.symm, hmodifier'.symm⟩

/-- An accepted notation remains so with all signs flipped exactly when the least word is not
met. -/
theorem exists_parse_flip_iff (h : WrittenAs terms s)
    (h' : WrittenAs (terms.map SignedTerm.flip) s') (he : parse s = .ok e) :
    (∃ e', parse s' = .ok e') ↔ ¬ MeetsLeast e.groups (terms.filterMap SignedTerm.flat?) := by
  obtain ⟨hrun, hgroups, hmodifier, hfit⟩ := h.parse_eq_ok_iff.mp he
  rw [not_meetsLeast_iff, hmodifier, ← Word.runningFits_map_neg_iff hrun, ← hfit.flip_iff,
    ← SignedTerm.filterMap_flat?_map_flip]
  constructor
  · rintro ⟨e', he'⟩
    have hopposite := h.opposite_of_parse h' he he'
    obtain ⟨hrun', -, -, hfit'⟩ := h'.parse_eq_ok_iff.mp he'
    rw [hopposite.groups, hopposite.modifier] at hfit'
    exact ⟨hrun', hfit'⟩
  · rintro ⟨hrun', hfit'⟩
    have hmodifier' := SignedTerm.sum_flat?_map_flip terms
    rw [hmodifier] at hmodifier'
    have hfits : Fits (-e.modifier) := by
      have hsum := hrun'.fits_sum
      rwa [hmodifier', Int.zero_add] at hsum
    refine ⟨⟨e.groups.map Group.flip, -e.modifier, ?_, hfits⟩,
      h'.parse_eq_ok_iff.mpr ⟨hrun', ?_, hmodifier', hfit'⟩⟩
    · exact mt List.map_eq_nil_iff.mp e.groups_ne_nil
    · rw [SignedTerm.filterMap_group?_map_flip, hgroups]

theorem exists_error_flip_iff (h : WrittenAs terms s)
    (h' : WrittenAs (terms.map SignedTerm.flip) s') (he : parse s = .ok e) :
    (∃ r, parse s' = .error r) ↔ MeetsLeast e.groups (terms.filterMap SignedTerm.flat?) := by
  rw [← not_iff_not, ← h.exists_parse_flip_iff h' he]
  cases parse s' with
  | ok e' => simp
  | error r => simp

/-- **A notation with all signs flipped.** If both notations are accepted, they mean opposite
expressions: the least total changes places with the greatest, and on the same samples every signed
face and the total are negated, with the source left in the same state. If the first is accepted,
the second is rejected exactly when the first meets the least word. -/
theorem parse_of_flip (h : WrittenAs terms s) (h' : WrittenAs (terms.map SignedTerm.flip) s') :
    (∀ e e', parse s = .ok e → parse s' = .ok e' →
      e.Opposite e' ∧
      (∃ b, totalBounds e.groups e.modifier = some b ∧
        totalBounds e'.groups e'.modifier = some ⟨-b.high, -b.low⟩) ∧
      ∀ (σ : Type) [Source σ] (source : σ),
        (e'.roll source).1.value.faces = ((e.roll source).1.value.faces.map fun x => -x) ∧
        (e'.roll source).1.value.total = -(e.roll source).1.value.total ∧
        (e'.roll source).2 = (e.roll source).2) ∧
    ∀ e, parse s = .ok e →
      ((∃ r, parse s' = .error r) ↔ MeetsLeast e.groups (terms.filterMap SignedTerm.flat?)) := by
  refine ⟨fun e e' he he' => ?_, fun e he => h.exists_error_flip_iff h' he⟩
  have hopposite := h.opposite_of_parse h' he he'
  refine ⟨hopposite, ?_, fun σ _ source => ?_⟩
  · exact hopposite.exists_totalBounds (Expression.totalsFit_of_parse he)
      (Expression.totalsFit_of_parse he')
  · exact ⟨hopposite.faces_roll source, hopposite.total_roll source, hopposite.state_roll source⟩

/-- The terms of an expression with both signs. -/
def twoAddedOneTakenTerms : List SignedTerm :=
  Expression.twoAddedOneTaken.groups.map SignedTerm.ofGroup ++ [.ofFlat .minus 3 (by decide)]

/-- A die of one side, with the least word taken in two parts. -/
def atLeastTerms : List SignedTerm :=
  [.ofGroup ⟨.one, ⟨.one, .plus⟩⟩, .ofFlat .minus 9223372036854775807 (by decide),
    .ofFlat .minus 1 (by decide)]

/-- The first notation remains accepted with all signs flipped, and the second does not, since its
modifier is the least word. -/
theorem parse_of_flip_atLeast :
    parse "+2d6 -1d4 -3" = .ok Expression.twoAddedOneTaken ∧
    (∃ e', parse "-2d6 +1d4 +3" = .ok e' ∧
      (e'.roll Expression.oddSamples).1.value.total = 5) ∧
    parse "+1d1 -9223372036854775807 -1" = .ok Expression.atLeast ∧
    ∃ r, parse "-1d1 +9223372036854775807 +1" = .error r := by
  have htwo : WrittenAs twoAddedOneTakenTerms "+2d6 -1d4 -3" := by
    rw [WrittenAs]
    cbv
  have htwoFlip : WrittenAs (twoAddedOneTakenTerms.map SignedTerm.flip) "-2d6 +1d4 +3" := by
    rw [WrittenAs]
    cbv
  have hleast : WrittenAs atLeastTerms "+1d1 -9223372036854775807 -1" := by
    rw [WrittenAs]
    cbv
  have hleastFlip : WrittenAs (atLeastTerms.map SignedTerm.flip)
      "-1d1 +9223372036854775807 +1" := by
    rw [WrittenAs]
    cbv
  have hparse : parse "+2d6 -1d4 -3" = .ok Expression.twoAddedOneTaken := by cbv
  have hparseLeast : parse "+1d1 -9223372036854775807 -1" = .ok Expression.atLeast := by cbv
  obtain ⟨e', hparseFlip⟩ : ∃ e', parse "-2d6 +1d4 +3" = .ok e' := ⟨_, by cbv⟩
  obtain ⟨-, -, hroll⟩ := (parse_of_flip htwo htwoFlip).1 _ _ hparse hparseFlip
  have htotal : (Expression.twoAddedOneTaken.roll Expression.oddSamples).1.value.total = -5 := by
    decide +kernel
  refine ⟨hparse, ⟨e', hparseFlip, ?_⟩, hparseLeast, ?_⟩
  · rw [(hroll _ Expression.oddSamples).2.1, htotal, Int.neg_neg]
  · refine ((parse_of_flip hleast hleastFlip).2 _ hparseLeast).mpr (.inl ⟨2, ?_⟩)
    decide

end WrittenAs

end DiceSum
