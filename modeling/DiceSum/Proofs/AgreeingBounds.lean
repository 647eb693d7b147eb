import DiceSum.Proofs.RangeCheck
import DiceSum.Proofs.Saturation

/-!
# Where the two kinds of bounds agree

The checked bounds of an expression add its groups to zero and the modifier last. The saturating
bounds start from the modifier and cut every sum that leaves the range. They are the same numbers
exactly if nothing has to be cut. This is so without a modifier, as both then add the groups to
zero. It is so too if all groups have one sign, as the sums then move in one direction only, from
the modifier, which fits, to the total, which the checked bounds have found to fit.

## Main results

* `DiceSum.TotalsFit.runningFits_of_same_sign` — sums from the modifier on, for groups of one sign.
* `DiceSum.Expression.totalBounds_agree` — the expressions whose two kinds of bounds agree.
-/

namespace DiceSum

open Word (Fits RunningFits)

variable {groups : List Group} {modifier : Int}

theorem same_sign_map {f : Group → Int} (hplus : ∀ g : Group, g.die.sign = .plus → 0 ≤ f g)
    (hminus : ∀ g : Group, g.die.sign = .minus → f g ≤ 0)
    (hsign : ∃ sign, ∀ g ∈ groups, g.die.sign = sign) :
    (∀ x ∈ groups.map f, 0 ≤ x) ∨ ∀ x ∈ groups.map f, x ≤ 0 := by
  simp only [List.forall_mem_map]
  obtain ⟨sign, hsign⟩ := hsign
  cases sign with
  | plus => exact .inl fun g hg => hplus g (hsign g hg)
  | minus => exact .inr fun g hg => hminus g (hsign g hg)

namespace TotalsFit

/-- Without a modifier the sums from the modifier on are those from zero on. -/
theorem runningFits_of_eq_zero (h : TotalsFit groups modifier) (hzero : modifier = 0) :
    RunningFits modifier (groups.map Group.low) ∧ RunningFits modifier (groups.map Group.high) := by
  rw [hzero]
  exact ⟨h.low, h.high⟩

/-- The sums from the modifier on fit if the groups have one sign. -/
theorem runningFits_of_same_sign (h : TotalsFit groups modifier) (hmodifier : Fits modifier)
    (hsign : ∃ sign, ∀ g ∈ groups, g.die.sign = sign) :
    RunningFits modifier (groups.map Group.low) ∧ RunningFits modifier (groups.map Group.high) := by
  constructor
  · refine Word.runningFits_of_same_sign ?_ hmodifier (Int.add_comm _ _ ▸ h.low_total)
    exact same_sign_map (fun g => g.low_nonneg_of_plus) (fun g => g.low_nonpos_of_minus) hsign
  · refine Word.runningFits_of_same_sign ?_ hmodifier (Int.add_comm _ _ ▸ h.high_total)
    exact same_sign_map (fun g => g.high_nonneg_of_plus) (fun g => g.high_nonpos_of_minus) hsign

end TotalsFit

namespace Expression

/-- Where the checked bounds exist, each saturating bound is the checked one exactly when the sums
of the modifier and the contributions of the first groups fit. -/
theorem least_greatest_eq_iff {e : Expression} {b : Bounds}
    (h : totalBounds e.groups e.modifier = some b) :
    (e.least = b.low ↔ RunningFits e.modifier (e.groups.map Group.low)) ∧
    (e.greatest = b.high ↔ RunningFits e.modifier (e.groups.map Group.high)) := by
  obtain ⟨hfit, rfl⟩ := totalBounds_eq_some_iff.mp h
  rw [← hfit.least_eq_iff, ← hfit.greatest_eq_iff, Int.add_comm e.modifier,
    Int.add_comm e.modifier]
  exact ⟨Iff.rfl, Iff.rfl⟩

/-- **The two kinds of bounds agree where nothing saturates.** Of an expression with checked bounds
the saturating bounds are the same if and only if the modifier and the least sums of the first
groups have sums that fit, and so have the modifier and the greatest sums. Every accepted notation
without a modifier, and every one whose groups have one sign, is such an expression. -/
theorem totalBounds_agree (e : Expression) :
    (∀ b, totalBounds e.groups e.modifier = some b →
      (e.least = b.low ↔ RunningFits e.modifier (e.groups.map Group.low)) ∧
      (e.greatest = b.high ↔ RunningFits e.modifier (e.groups.map Group.high))) ∧
    ∀ s, parse s = .ok e →
      (e.modifier = 0 ∨ ∃ sign, ∀ g ∈ e.groups, g.die.sign = sign) →
      (RunningFits e.modifier (e.groups.map Group.low) ∧
        RunningFits e.modifier (e.groups.map Group.high)) ∧
      totalBounds e.groups e.modifier = some ⟨e.least, e.greatest⟩ := by
  refine ⟨fun b => least_greatest_eq_iff, fun s hparse hcase => ?_⟩
  have hfit := totalsFit_of_parse hparse
  have hrun : RunningFits e.modifier (e.groups.map Group.low) ∧
      RunningFits e.modifier (e.groups.map Group.high) := by
    rcases hcase with hzero | hsign
    · exact hfit.runningFits_of_eq_zero hzero
    · exact hfit.runningFits_of_same_sign e.modifier_fits hsign
  have hbounds := totalBounds_eq_some_iff.mpr ⟨hfit, rfl⟩
  obtain ⟨hleast, hgreatest⟩ := least_greatest_eq_iff hbounds
  rw [hleast.mpr hrun.1, hgreatest.mpr hrun.2]
  exact ⟨hrun, hbounds⟩

/-- Dice that are all subtracted, with a modifier for which the least total is the least word. -/
def reachingLeast : Expression where
  groups := [⟨⟨5, by decide, by decide⟩, ⟨sixSides, .minus⟩⟩, ⟨.one, ⟨fourSides, .minus⟩⟩]
  modifier := -9223372036854775774
  groups_ne_nil := by decide
  modifier_fits := by decide

theorem totalBounds_agree_reachingLeast :
    parse "-5d6-d4-9223372036854775774" = .ok reachingLeast ∧
    totalBounds reachingLeast.groups reachingLeast.modifier =
      some ⟨reachingLeast.least, reachingLeast.greatest⟩ ∧
    reachingLeast.least = Word.least ∧
    ¬ RunningFits reachingGreatest.modifier (reachingGreatest.groups.map Group.high) := by
  have hparse : parse "-5d6-d4-9223372036854775774" = .ok reachingLeast := by cbv
  obtain ⟨-, hagree⟩ := totalBounds_agree reachingLeast
  have hbounds := (hagree _ hparse (.inr ⟨.minus, by decide⟩)).2
  -- Where something saturates, the bound and the greatest total differ.
  have hiff := ((totalBounds_agree reachingGreatest).1
    ⟨9223372036854775799, Word.greatest⟩ (by decide)).2
  exact ⟨hparse, hbounds, by decide, mt hiff.mpr (by decide)⟩

end Expression

end DiceSum
