import DiceSum.Proofs.EndFaces
import DiceSum.Proofs.Overflow
import DiceSum.Proofs.Saturation
import DiceSum.Proofs.Stream

/-!
# Rolls between the saturating bounds

The saturating bounds of an accepted notation are meant to bracket every roll, and to be totals of
some faces themselves. The least and the greatest total of an expression are indeed shown by rolls:
zero selects the first face of a die, and the greatest fraction below one the last. So the bounds
are as they are meant to be exactly when they are exact, which is when the modifier and the sums of
the first groups have sums that fit. Acceptance does not imply this: it adds the modifier last.

## Main definitions

* `DiceSum.Expression.Bracketed` — what the saturating bounds are meant to be.

## Main results

* `DiceSum.Expression.exists_roll_low`, `DiceSum.Expression.exists_roll_high` — rolls with the least
  and the greatest total.
* `DiceSum.Expression.bracketed_iff_of_parse` — the accepted notations with such bounds.
-/

namespace DiceSum

open Word (RunningFits)

/-! ### The extreme throws of a die -/

namespace Die

/-- A sample that selects the least signed face of a die. -/
def lowSample (d : Die) : Sample :=
  match d.sign with
  | .plus => .zero
  | .minus => .belowOne

/-- A sample that selects the greatest signed face of a die. -/
def highSample (d : Die) : Sample :=
  match d.sign with
  | .plus => .belowOne
  | .minus => .zero

theorem signedFace_lowSample (d : Die) : (Throw.mk d d.lowSample).signedFace = d.low := by
  rw [Throw.signedFace, Throw.face, lowSample, low]
  cases d.sign with
  | plus => rw [Sample.face_zero, Sign.apply_plus]
  | minus => rw [Sample.face_belowOne, Sign.apply_minus]

theorem signedFace_highSample (d : Die) : (Throw.mk d d.highSample).signedFace = d.high := by
  rw [Throw.signedFace, Throw.face, highSample, high]
  cases d.sign with
  | plus => rw [Sample.face_belowOne, Sign.apply_plus]
  | minus => rw [Sample.face_zero, Sign.apply_minus]

end Die

namespace Expression

/-! ### The extreme rolls of an expression -/

theorem dice_ne_nil (e : Expression) : e.dice ≠ [] := by
  obtain ⟨g, hg⟩ := List.exists_mem_of_ne_nil e.groups e.groups_ne_nil
  refine List.ne_nil_of_mem (a := g.die) (List.mem_flatMap.mpr ⟨g, hg, ?_⟩)
  exact List.mem_replicate.mpr ⟨g.count.pos.ne', rfl⟩

/-- The total of the roll in which each die takes the sample that `f` gives for it. -/
theorem total_roll_forDice (f : Die → Sample) (e : Expression) :
    (e.roll (Cycle.forDice f e.dice e.dice_ne_nil)).1.value.total =
      (e.dice.map fun d => (Throw.mk d (f d)).signedFace).sum + e.modifier := by
  rw [Roll.total_eq, faces_roll, modifier_roll, Cycle.throwAll_forDice, List.map_map]
  rfl

theorem exists_roll_low (e : Expression) : ∃ source : Cycle,
    (e.roll source).1.value.total = (e.groups.map Group.low).sum + e.modifier := by
  refine ⟨Cycle.forDice Die.lowSample e.dice e.dice_ne_nil, ?_⟩
  simp only [total_roll_forDice, Die.signedFace_lowSample]
  rw [dice, sum_low_dice]

theorem exists_roll_high (e : Expression) : ∃ source : Cycle,
    (e.roll source).1.value.total = (e.groups.map Group.high).sum + e.modifier := by
  refine ⟨Cycle.forDice Die.highSample e.dice e.dice_ne_nil, ?_⟩
  simp only [total_roll_forDice, Die.signedFace_highSample]
  rw [dice, sum_high_dice]

/-! ### Bracketed totals -/

/-- Every roll, with whatever source, has a total between the saturating bounds, and both bounds are
totals for some choice of faces. -/
structure Bracketed (e : Expression) : Prop where
  least_le : ∀ (σ : Type) [Source σ] (source : σ), e.least ≤ (e.roll source).1.value.total
  le_greatest : ∀ (σ : Type) [Source σ] (source : σ), (e.roll source).1.value.total ≤ e.greatest
  reaches_least : e.Reaches e.least
  reaches_greatest : e.Reaches e.greatest

/-- The bounds bracket the rolls exactly when they are the least and the greatest total. -/
theorem bracketed_iff_eq {e : Expression} :
    e.Bracketed ↔ e.least = e.modifier + (e.groups.map Group.low).sum ∧
      e.greatest = e.modifier + (e.groups.map Group.high).sum := by
  rw [Int.add_comm e.modifier, Int.add_comm e.modifier]
  constructor
  · intro h
    obtain ⟨lowest, hlowest⟩ := e.exists_roll_low
    obtain ⟨highest, hhighest⟩ := e.exists_roll_high
    exact ⟨Int.le_antisymm (hlowest ▸ h.least_le Cycle lowest) h.reaches_least.low_le,
      Int.le_antisymm h.reaches_greatest.le_high (hhighest ▸ h.le_greatest Cycle highest)⟩
  · rintro ⟨hleast, hgreatest⟩
    refine ⟨fun σ _ source => ?_, fun σ _ source => ?_, ?_, ?_⟩
    · rw [hleast]
      exact (e.reaches_total_roll source).low_le
    · rw [hgreatest]
      exact (e.reaches_total_roll source).le_high
    · rw [hleast]
      exact e.reaches_low
    · rw [hgreatest]
      exact e.reaches_high

/-- **The bounds of an accepted notation bracket every roll and are reached if and only if nothing
saturates**, which is when the modifier and the least sums of the first groups have sums that fit,
and so have the modifier and the greatest sums. -/
theorem bracketed_iff_of_parse {s : String} {e : Expression} (h : parse s = .ok e) :
    e.Bracketed ↔ RunningFits e.modifier (e.groups.map Group.low) ∧
      RunningFits e.modifier (e.groups.map Group.high) := by
  have hfit := totalsFit_of_parse h
  rw [bracketed_iff_eq, hfit.least_eq_iff, hfit.greatest_eq_iff]

/-- The dice of `reachingGreatest`, the subtracted one first. -/
def subtractingFirst : Expression where
  groups := [⟨.one, ⟨fourSides, .minus⟩⟩, ⟨.one, ⟨sixSides, .plus⟩⟩]
  modifier := reachingGreatest.modifier
  groups_ne_nil := by decide
  modifier_fits := reachingGreatest.modifier_fits

theorem bracketed_subtractingFirst :
    parse "-d4 + d6 + 9223372036854775802" = .ok subtractingFirst ∧
    subtractingFirst.greatest = Word.greatest ∧ subtractingFirst.Bracketed := by
  have hparse : parse "-d4 + d6 + 9223372036854775802" = .ok subtractingFirst := by cbv
  refine ⟨hparse, by decide, (bracketed_iff_of_parse hparse).mpr ⟨?_, ?_⟩⟩
  · rw [subtractingFirst, List.map_cons, List.map_singleton]
    simp only [Word.runningFits_cons, Word.runningFits_nil]
    decide
  · rw [subtractingFirst, List.map_cons, List.map_singleton]
    simp only [Word.runningFits_cons, Word.runningFits_nil]
    decide

/-- With the added die first, the greatest total is the greatest word, but the bound is one less:
the sum of the modifier and the added die is cut before the subtracted die is taken off. -/
theorem not_bracketed_reachingGreatest :
    parse "d6 - d4 + 9223372036854775802" = .ok reachingGreatest ∧
    (reachingGreatest.roll extremeSamples).1.value.total = 9223372036854775807 ∧
    reachingGreatest.greatest = 9223372036854775806 ∧ ¬ reachingGreatest.Bracketed := by
  have htotal : (reachingGreatest.roll extremeSamples).1.value.total = 9223372036854775807 := by
    decide +kernel
  have hgreatest : reachingGreatest.greatest = 9223372036854775806 := by decide
  refine ⟨by cbv, htotal, hgreatest, fun h => ?_⟩
  have hle := h.le_greatest Cycle extremeSamples
  rw [htotal, hgreatest] at hle
  omega

end Expression

end DiceSum
