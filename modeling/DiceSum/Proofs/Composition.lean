import DiceSum.Proofs.DrawOrder

/-!
# Rolling in parts

Nothing but the source passes from one die to the next. So the groups of an expression can be rolled
in two parts, the second against the source as the first leaves it: the faces stand in a row and the
totals are added up, since the modifiers are. Nor does it matter where one group ends and the next
one begins if they are of the same die, because only the row of dice counts.

In words, the roll of the whole can stop where those of the parts do not: the sum goes on from the
faces of the first part, and a modifier that brings it back is added only at the end.

## Main definitions

* `DiceSum.Expression.Joins` — an expression that is made of two others.
* `DiceSum.Group.Splits`, `DiceSum.Expression.Splits` — a group that is written as two.

## Main results

* `DiceSum.Expression.Joins.faces_roll`, `DiceSum.Expression.Joins.total_roll`,
  `DiceSum.Expression.Joins.state_roll` — the roll of two expressions in a row.
* `DiceSum.Expression.Joins.wordRoll?_eq_some_iff` — when it does not stop in words.
* `DiceSum.Expression.roll_in_parts` — rolls of parts and of split groups.
-/

namespace DiceSum

open Word (Fits RunningFits)

/-- In the second row one group of the first is written as two groups of the same die. -/
inductive Group.Splits : List Group → List Group → Prop
  | mk (front back : List Group) (die : Die) {count count₁ count₂ : Quantity}
      (h : count₁.toNat + count₂.toNat = count.toNat) :
      Splits (front ++ ⟨count, die⟩ :: back) (front ++ ⟨count₁, die⟩ :: ⟨count₂, die⟩ :: back)

theorem Group.Splits.flatMap_dice {groups groups' : List Group} (h : Group.Splits groups groups') :
    groups'.flatMap Group.dice = groups.flatMap Group.dice := by
  obtain ⟨front, back, die, hcount⟩ := h
  have hdice : List.replicate _ die ++ List.replicate _ die = List.replicate _ die :=
    List.replicate_append_replicate.trans (congrArg (List.replicate · die) hcount)
  simp only [List.flatMap_append, List.flatMap_cons, dice, ← List.append_assoc, hdice]

namespace Expression

variable {σ : Type} [Source σ] {e e' e₁ e₂ : Expression}

/-! ### The same row of dice -/

/-- Only the row of dice and the modifier count for a roll. -/
theorem value_roll_congr (hdice : e'.dice = e.dice) (hmodifier : e'.modifier = e.modifier)
    (source : σ) : (e'.roll source).1.value = (e.roll source).1.value := by
  rw [roll_eq, roll_eq, hdice, hmodifier]

theorem state_roll_congr (hdice : e'.dice = e.dice) (source : σ) :
    (e'.roll source).2 = (e.roll source).2 := by
  rw [roll_eq, roll_eq, hdice]

theorem wordRoll?_congr (hdice : e'.dice = e.dice) (hmodifier : e'.modifier = e.modifier)
    (source : σ) : e'.wordRoll? source = e.wordRoll? source := by
  rw [wordRoll?, wordRoll?, hdice, hmodifier]

/-- In the expression `e'` one group of `e` is written as two groups of the same die. -/
structure Splits (e e' : Expression) : Prop where
  groups : Group.Splits e.groups e'.groups
  modifier : e'.modifier = e.modifier

theorem Splits.dice_eq (h : e.Splits e') : e'.dice = e.dice := h.groups.flatMap_dice

/-! ### Two expressions in a row -/

/-- The expression `e` has the groups of `e₁`, then those of `e₂`, and the sum of their
modifiers. -/
structure Joins (e₁ e₂ e : Expression) : Prop where
  groups : e.groups = e₁.groups ++ e₂.groups
  modifier : e.modifier = e₁.modifier + e₂.modifier

namespace Joins

variable (h : e₁.Joins e₂ e) (source : σ)

include h

theorem dice_eq : e.dice = e₁.dice ++ e₂.dice := by
  rw [dice, h.groups, List.flatMap_append, dice, dice]

/-- The second expression is thrown from the state in which the first leaves the source. -/
theorem throwAll_eq :
    throwAll e.dice source =
      ((throwAll e₁.dice source).1 ++ (throwAll e₂.dice (e₁.roll source).2).1,
        (throwAll e₂.dice (e₁.roll source).2).2) := by
  rw [h.dice_eq, throwAll_append]
  rfl

theorem faces_roll :
    (e.roll source).1.value.faces =
      (e₁.roll source).1.value.faces ++ (e₂.roll (e₁.roll source).2).1.value.faces := by
  rw [Expression.faces_roll, h.throwAll_eq, List.map_append]
  rfl

theorem state_roll : (e.roll source).2 = (e₂.roll (e₁.roll source).2).2 := by
  rw [roll_eq, h.throwAll_eq]
  rfl

theorem total_roll :
    (e.roll source).1.value.total =
      (e₁.roll source).1.value.total + (e₂.roll (e₁.roll source).2).1.value.total := by
  simp only [Roll.total_eq, h.faces_roll, modifier_roll, h.modifier, List.sum_append]
  omega

/-- If neither part stops in words, the whole does not either exactly when the faces of the second
part can be added to those of the first, and the totals to each other. -/
theorem wordRoll?_eq_some_iff {r r₁ r₂ : List Int × Int} (h₁ : e₁.wordRoll? source = some r₁)
    (h₂ : e₂.wordRoll? (e₁.roll source).2 = some r₂) :
    e.wordRoll? source = some r ↔
      RunningFits r₁.1.sum r₂.1 ∧ Fits (r₁.2 + r₂.2) ∧ r = (r₁.1 ++ r₂.1, r₁.2 + r₂.2) := by
  obtain ⟨hreach₁, hrun₁, -, rfl⟩ := Expression.wordRoll?_eq_some_iff.mp h₁
  obtain ⟨hreach₂, -, -, rfl⟩ := Expression.wordRoll?_eq_some_iff.mp h₂
  have hreach : ∀ t ∈ (throwAll e.dice source).1, t.InReach := by
    rw [h.throwAll_eq]
    exact List.forall_mem_append.mpr ⟨hreach₁, hreach₂⟩
  have hfits : (e.roll source).1.value.faces.sum + e.modifier =
      (e₁.roll source).1.value.total + (e₂.roll (e₁.roll source).2).1.value.total := by
    rw [← h.total_roll, Roll.total_eq, modifier_roll]
  rw [Expression.wordRoll?_eq_some_iff, hfits, h.total_roll, h.faces_roll, Word.runningFits_append,
    Int.zero_add]
  constructor
  · rintro ⟨-, ⟨-, hrun⟩, htotal, hr⟩
    exact ⟨hrun, htotal, hr⟩
  · rintro ⟨hrun, htotal, hr⟩
    exact ⟨hreach, ⟨hrun₁, hrun⟩, htotal, hr⟩

end Joins

/-- **Rolling in parts.** The roll of two expressions in a row has the faces of the first and then
those of the second, rolled against the source as the first leaves it, and its total is the sum of
the totals. It leaves the source where the second does, with as many samples taken. In words it has
these faces and this total unless it stops. A group that is written as two groups of the same die,
wherever it stands, changes neither the roll, in words or not, nor what is taken from the source. -/
theorem roll_in_parts (source : σ) :
    (∀ e₁ e₂ e : Expression, e₁.Joins e₂ e →
      (e.roll source).1.value.faces =
        (e₁.roll source).1.value.faces ++ (e₂.roll (e₁.roll source).2).1.value.faces ∧
      (e.roll source).1.value.total =
        (e₁.roll source).1.value.total + (e₂.roll (e₁.roll source).2).1.value.total ∧
      (e.roll source).2 = (e₂.roll (e₁.roll source).2).2 ∧
      (∀ n, (e.roll (⟨source, n⟩ : Metered σ)).2 =
        (e₂.roll (e₁.roll (⟨source, n⟩ : Metered σ)).2).2) ∧
      ∀ r₁ r₂, e₁.wordRoll? source = some r₁ → e₂.wordRoll? (e₁.roll source).2 = some r₂ →
        ∀ r, e.wordRoll? source = some r ↔
          RunningFits r₁.1.sum r₂.1 ∧ Fits (r₁.2 + r₂.2) ∧
            r = (r₁.1 ++ r₂.1, r₁.2 + r₂.2)) ∧
    ∀ e e' : Expression, e.Splits e' →
      (e'.roll source).1.value.faces = (e.roll source).1.value.faces ∧
      (e'.roll source).1.value.total = (e.roll source).1.value.total ∧
      (e'.roll source).2 = (e.roll source).2 ∧
      (∀ n, (e'.roll (⟨source, n⟩ : Metered σ)).2 = (e.roll (⟨source, n⟩ : Metered σ)).2) ∧
      e'.wordRoll? source = e.wordRoll? source := by
  refine ⟨fun e₁ e₂ e h => ⟨h.faces_roll source, h.total_roll source, h.state_roll source,
    fun n => h.state_roll _, fun r₁ r₂ h₁ h₂ r => h.wordRoll?_eq_some_iff source h₁ h₂⟩,
    fun e e' h => ?_⟩
  have hvalue := value_roll_congr h.dice_eq h.modifier source
  exact ⟨congrArg Roll.faces hvalue, congrArg Roll.total hvalue, state_roll_congr h.dice_eq source,
    fun n => state_roll_congr h.dice_eq _, wordRoll?_congr h.dice_eq h.modifier source⟩

/-- The dice of `twoAddedOneTaken` that are added, with a part of its modifier. -/
def twoAdded : Expression where
  groups := twoAddedOneTaken.groups.take 1
  modifier := -1
  groups_ne_nil := by decide
  modifier_fits := by decide

/-- The die of `twoAddedOneTaken` that is subtracted, with the rest of its modifier. -/
def oneSubtracted : Expression where
  groups := twoAddedOneTaken.groups.drop 1
  modifier := -2
  groups_ne_nil := by decide
  modifier_fits := by decide

/-- The dice of `twoAddedOneTaken` in three groups. -/
def oneAndOneAddedOneTaken : Expression where
  groups := [⟨.one, ⟨sixSides, .plus⟩⟩, ⟨.one, ⟨sixSides, .plus⟩⟩, ⟨.one, ⟨fourSides, .minus⟩⟩]
  modifier := twoAddedOneTaken.modifier
  groups_ne_nil := by decide
  modifier_fits := twoAddedOneTaken.modifier_fits

theorem roll_in_parts_oddSamples :
    twoAdded.wordRoll? oddSamples = some ([1, 1], 1) ∧
    oneSubtracted.wordRoll? (twoAdded.roll oddSamples).2 = some ([-4], -6) ∧
    twoAddedOneTaken.wordRoll? oddSamples = some ([1, 1, -4], -5) ∧
    (twoAddedOneTaken.roll oddSamples).1.value.faces =
      (twoAdded.roll oddSamples).1.value.faces ++
        (oneSubtracted.roll (twoAdded.roll oddSamples).2).1.value.faces ∧
    (twoAddedOneTaken.roll oddSamples).2 = (oneSubtracted.roll (twoAdded.roll oddSamples).2).2 ∧
    oneAndOneAddedOneTaken.wordRoll? oddSamples = some ([1, 1, -4], -5) := by
  have hfirst : twoAdded.wordRoll? oddSamples = some ([1, 1], 1) := by decide +kernel
  have hsecond : oneSubtracted.wordRoll? (twoAdded.roll oddSamples).2 = some ([-4], -6) := by
    decide +kernel
  have hjoins : twoAdded.Joins oneSubtracted twoAddedOneTaken := ⟨rfl, rfl⟩
  have hsplits : twoAddedOneTaken.Splits oneAndOneAddedOneTaken :=
    ⟨.mk [] [⟨.one, ⟨fourSides, .minus⟩⟩] ⟨sixSides, .plus⟩ rfl, rfl⟩
  obtain ⟨hparts, hgroups⟩ := roll_in_parts oddSamples
  obtain ⟨hfaces, -, hstate, -, hwords⟩ := hparts _ _ _ hjoins
  have hwhole : twoAddedOneTaken.wordRoll? oddSamples = some ([1, 1, -4], -5) := by
    refine (hwords _ _ hfirst hsecond _).mpr ⟨?_, by decide, rfl⟩
    simp only [Word.runningFits_cons, Word.runningFits_nil]
    decide
  refine ⟨hfirst, hsecond, hwhole, hfaces, hstate, ?_⟩
  rw [(hgroups _ _ hsplits).2.2.2.2, hwhole]

end Expression

end DiceSum
