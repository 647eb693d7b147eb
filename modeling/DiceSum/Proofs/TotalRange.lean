import DiceSum.Expression.Bounds
import DiceSum.Proofs.FaceChoice
import DiceSum.Proofs.RunningSum

/-!
# The range of the totals

The checked bounds of a dice sum are taken group by group, while a roll adds one die after another
and the modifier last. Within a group all dice have one sign, so that the least and the greatest
sums that are possible after some of its dice lie between those before and those after the group.
Hence no sum on the way of a roll leaves the range if the checked bounds exist.

## Main definitions

* `DiceSum.TotalsFit` — what the checked bounds ask for: spans, sums over the first groups and
  totals that fit.
* `DiceSum.Expression.Reaches` — the totals that some choice of faces gives.

## Main results

* `DiceSum.totalBounds_eq_some_iff` — the checked bounds exist exactly when all these integers fit,
  and they are the two totals.
* `DiceSum.FaceChoice.runningFits`, `DiceSum.FaceChoice.fits_total` — the sums of the first faces of
  a choice, and its total.
* `DiceSum.TotalsFit.runningFits_signedFace`, `DiceSum.low_le_sum_signedFace`,
  `DiceSum.sum_signedFace_le_high` — the sums of the faces of a roll.
* `DiceSum.Expression.reaches_low`, `DiceSum.Expression.Reaches.low_le`,
  `DiceSum.Expression.reaches_high`, `DiceSum.Expression.Reaches.le_high` — the least and the
  greatest total that is reached.
-/

namespace DiceSum

open Word (Fits RunningFits)

/-- The total of a roll is the sum of its faces and its modifier. -/
theorem Roll.total_eq (r : Roll) : r.total = r.faces.sum + r.modifier := by
  rw [Roll.total, List.sum_eq_foldl]

/-! ### Groups -/

namespace Group

theorem low_eq (g : Group) : g.low = g.count.toNat * g.die.low := by
  rw [low, Die.low]
  cases g.die.sign with
  | plus => exact (Int.mul_one _).symm
  | minus => exact (Int.mul_neg _ _).symm

theorem high_eq (g : Group) : g.high = g.count.toNat * g.die.high := by
  rw [high, Die.high]
  cases g.die.sign with
  | plus => rfl
  | minus => exact ((Int.mul_neg _ _).trans (congrArg Neg.neg (Int.mul_one _))).symm

theorem span_nonneg (g : Group) : 0 ≤ g.span :=
  Int.mul_nonneg (Int.natCast_nonneg _) (Int.natCast_nonneg _)

theorem fits_span_iff {g : Group} : Fits g.span ↔ g.span ≤ Word.greatest := by
  have hnonneg := g.span_nonneg
  rw [Word.fits_iff, Word.greatest]
  omega

end Group

/-! ### The checked bounds -/

namespace Bounds

variable {b b' : Bounds}

theorem shift?_eq_some_iff {low high : Int} :
    b.shift? low high = some b' ↔
      Fits (b.low + low) ∧ Fits (b.high + high) ∧ b' = ⟨b.low + low, b.high + high⟩ := by
  simp only [shift?, Option.bind_eq_bind, Option.bind_eq_some_iff, Word.checked_eq_some,
    Option.pure_def, Option.some.injEq]
  constructor
  · rintro ⟨x, ⟨hx, rfl⟩, y, ⟨hy, rfl⟩, rfl⟩
    exact ⟨hx, hy, rfl⟩
  · rintro ⟨hx, hy, rfl⟩
    exact ⟨_, ⟨hx, rfl⟩, _, ⟨hy, rfl⟩, rfl⟩

theorem addGroup?_eq_some_iff {g : Group} :
    b.addGroup? g = some b' ↔ Fits g.span ∧ Fits (b.low + g.low) ∧ Fits (b.high + g.high) ∧
      b' = ⟨b.low + g.low, b.high + g.high⟩ := by
  rw [addGroup?, Option.bind_eq_bind, Option.bind_eq_some_iff]
  constructor
  · rintro ⟨x, hx, hb⟩
    exact ⟨(Word.checked_eq_some.mp hx).1, shift?_eq_some_iff.mp hb⟩
  · rintro ⟨hspan, hb⟩
    exact ⟨g.span, Word.checked_of_fits hspan, shift?_eq_some_iff.mpr hb⟩

theorem foldlM_addGroup?_eq_some_iff {groups : List Group} (hlow : Fits b.low)
    (hhigh : Fits b.high) :
    groups.foldlM addGroup? b = some b' ↔
      (∀ g ∈ groups, Fits g.span) ∧ RunningFits b.low (groups.map Group.low) ∧
      RunningFits b.high (groups.map Group.high) ∧
      b' = ⟨b.low + (groups.map Group.low).sum, b.high + (groups.map Group.high).sum⟩ := by
  induction groups generalizing b with
  | nil => simp [hlow, hhigh, eq_comm]
  | cons g groups ih =>
    rw [List.foldlM_cons, Option.bind_eq_bind, Option.bind_eq_some_iff]
    simp only [List.forall_mem_cons, List.map_cons, Word.runningFits_cons, List.sum_cons]
    constructor
    · rintro ⟨c, hc, hrest⟩
      obtain ⟨hspan, hl, hh, rfl⟩ := addGroup?_eq_some_iff.mp hc
      obtain ⟨hspans, hlows, hhighs, rfl⟩ := (ih hl hh).mp hrest
      refine ⟨⟨hspan, hspans⟩, ⟨hlow, hlows⟩, ⟨hhigh, hhighs⟩, ?_⟩
      rw [Int.add_assoc, Int.add_assoc]
    · rintro ⟨⟨hspan, hspans⟩, ⟨-, hlows⟩, ⟨-, hhighs⟩, rfl⟩
      refine ⟨_, addGroup?_eq_some_iff.mpr ⟨hspan, hlows.fits_start, hhighs.fits_start, rfl⟩, ?_⟩
      refine (ih hlows.fits_start hhighs.fits_start).mpr ⟨hspans, hlows, hhighs, ?_⟩
      rw [Int.add_assoc, Int.add_assoc]

end Bounds

/-- The greatest sum of each group, the least and the greatest sums over the first groups and the
least and the greatest total fit. -/
structure TotalsFit (groups : List Group) (modifier : Int) : Prop where
  span : ∀ g ∈ groups, Fits g.span
  low : RunningFits 0 (groups.map Group.low)
  high : RunningFits 0 (groups.map Group.high)
  low_total : Fits ((groups.map Group.low).sum + modifier)
  high_total : Fits ((groups.map Group.high).sum + modifier)

variable {groups : List Group} {modifier : Int}

theorem totalBounds_eq_some_iff {b : Bounds} :
    totalBounds groups modifier = some b ↔ TotalsFit groups modifier ∧
      b = ⟨(groups.map Group.low).sum + modifier, (groups.map Group.high).sum + modifier⟩ := by
  rw [totalBounds, Option.bind_eq_bind, Option.bind_eq_some_iff]
  constructor
  · rintro ⟨c, hc, hb⟩
    obtain ⟨hspan, hlow, hhigh, rfl⟩ :=
      (Bounds.foldlM_addGroup?_eq_some_iff Word.fits_zero Word.fits_zero).mp hc
    obtain ⟨hl, hh, rfl⟩ := Bounds.shift?_eq_some_iff.mp hb
    simp only [Int.zero_add] at hl hh ⊢
    exact ⟨⟨hspan, hlow, hhigh, hl, hh⟩, trivial⟩
  · rintro ⟨⟨hspan, hlow, hhigh, hl, hh⟩, rfl⟩
    refine ⟨⟨(groups.map Group.low).sum, (groups.map Group.high).sum⟩, ?_,
      Bounds.shift?_eq_some_iff.mpr ⟨hl, hh, rfl⟩⟩
    refine (Bounds.foldlM_addGroup?_eq_some_iff Word.fits_zero Word.fits_zero).mpr
      ⟨hspan, hlow, hhigh, ?_⟩
    simp only [Int.zero_add]

theorem totalBounds_eq_none_iff :
    totalBounds groups modifier = none ↔ ¬ TotalsFit groups modifier := by
  rw [Option.eq_none_iff_forall_ne_some]
  constructor
  · intro h hfit
    exact h _ (totalBounds_eq_some_iff.mpr ⟨hfit, rfl⟩)
  · intro h b hb
    exact h (totalBounds_eq_some_iff.mp hb).1

/-! ### Rows of dice -/

/-- The sums after each die fit if those after each group do: within a group the same integer is
added again and again. -/
theorem runningFits_dice {f : Die → Int} {start : Int}
    (h : RunningFits start (groups.map fun g => g.count.toNat * f g.die)) :
    RunningFits start ((groups.flatMap Group.dice).map f) := by
  induction groups generalizing start with
  | nil => exact h
  | cons g groups ih =>
    rw [List.map_cons, Word.runningFits_cons] at h
    rw [List.flatMap_cons, List.map_append, Word.runningFits_append, Group.dice,
      List.map_replicate, List.sum_replicate_int]
    exact ⟨Word.runningFits_replicate h.1 h.2.fits_start, ih h.2⟩

theorem sum_map_dice (f : Die → Int) (groups : List Group) :
    ((groups.flatMap Group.dice).map f).sum =
      (groups.map fun g => g.count.toNat * f g.die).sum := by
  induction groups with
  | nil => rfl
  | cons g groups ih =>
    rw [List.flatMap_cons, List.map_append, List.sum_append, ih, Group.dice, List.map_replicate,
      List.sum_replicate_int, List.map_cons, List.sum_cons]

theorem sum_low_dice (groups : List Group) :
    ((groups.flatMap Group.dice).map Die.low).sum = (groups.map Group.low).sum := by
  simp only [sum_map_dice, ← Group.low_eq]

theorem sum_high_dice (groups : List Group) :
    ((groups.flatMap Group.dice).map Die.high).sum = (groups.map Group.high).sum := by
  simp only [sum_map_dice, ← Group.high_eq]

theorem sum_low_le_sum_high (groups : List Group) :
    (groups.map Group.low).sum ≤ (groups.map Group.high).sum := by
  rw [← sum_low_dice, ← sum_high_dice]
  exact (faceChoice_low _).sum_le_high

/-- No sum of the first faces of a choice leaves the range if neither the least nor the greatest
sums over the first groups do. -/
theorem FaceChoice.runningFits {faces : List Int} (h : FaceChoice (groups.flatMap Group.dice) faces)
    (hlows : RunningFits 0 (groups.map Group.low))
    (hhighs : RunningFits 0 (groups.map Group.high)) : RunningFits 0 faces := by
  have hlow : RunningFits 0 ((groups.flatMap Group.dice).map Die.low) :=
    runningFits_dice (by simpa only [← Group.low_eq] using hlows)
  have hhigh : RunningFits 0 ((groups.flatMap Group.dice).map Die.high) :=
    runningFits_dice (by simpa only [← Group.high_eq] using hhighs)
  exact hlow.of_between hhigh h.forall₂_low_le h.forall₂_le_high

/-- The total of a choice fits if the least and the greatest total do. -/
theorem FaceChoice.fits_total {faces : List Int} (h : FaceChoice (groups.flatMap Group.dice) faces)
    (hlow : Fits ((groups.map Group.low).sum + modifier))
    (hhigh : Fits ((groups.map Group.high).sum + modifier)) : Fits (faces.sum + modifier) := by
  have hle := h.sum_low_le
  have hge := h.sum_le_high
  rw [sum_low_dice] at hle
  rw [sum_high_dice] at hge
  rw [Word.fits_iff] at hlow hhigh ⊢
  omega

/-! ### Throws of a row of dice -/

variable {throws : List Throw}

theorem low_le_sum_signedFace (h : throws.map Throw.die = groups.flatMap Group.dice) :
    (groups.map Group.low).sum ≤ (throws.map Throw.signedFace).sum := by
  rw [← sum_low_dice, ← h]
  exact (faceChoice_throws throws).sum_low_le

theorem sum_signedFace_le_high (h : throws.map Throw.die = groups.flatMap Group.dice) :
    (throws.map Throw.signedFace).sum ≤ (groups.map Group.high).sum := by
  rw [← sum_high_dice, ← h]
  exact (faceChoice_throws throws).sum_le_high

/-- No sum of the first faces of a roll leaves the range. -/
theorem TotalsFit.runningFits_signedFace (hfit : TotalsFit groups modifier)
    (h : throws.map Throw.die = groups.flatMap Group.dice) :
    RunningFits 0 (throws.map Throw.signedFace) :=
  (h ▸ faceChoice_throws throws : FaceChoice _ _).runningFits hfit.low hfit.high

theorem map_die_throwAll {σ : Type} [Source σ] (dice : List Die) (s : σ) :
    (throwAll dice s).1.map Throw.die = dice := by
  induction dice generalizing s with
  | nil => rfl
  | cons d dice ih => rw [throwAll_cons, List.map_cons, ih]

/-! ### Totals -/

namespace Expression

/-- The totals that an expression has for some choice of one face for each of its dice. -/
def Reaches (e : Expression) (total : Int) : Prop :=
  ∃ faces, FaceChoice e.dice faces ∧ faces.sum + e.modifier = total

variable {e : Expression} {total : Int}

theorem reaches_low (e : Expression) : e.Reaches ((e.groups.map Group.low).sum + e.modifier) :=
  ⟨e.dice.map Die.low, faceChoice_low e.dice, by rw [← sum_low_dice, dice]⟩

theorem reaches_high (e : Expression) : e.Reaches ((e.groups.map Group.high).sum + e.modifier) :=
  ⟨e.dice.map Die.high, faceChoice_high e.dice, by rw [← sum_high_dice, dice]⟩

theorem Reaches.low_le (h : e.Reaches total) :
    (e.groups.map Group.low).sum + e.modifier ≤ total := by
  obtain ⟨faces, hfaces, rfl⟩ := h
  rw [← sum_low_dice]
  exact Int.add_le_add_right hfaces.sum_low_le e.modifier

theorem Reaches.le_high (h : e.Reaches total) :
    total ≤ (e.groups.map Group.high).sum + e.modifier := by
  obtain ⟨faces, hfaces, rfl⟩ := h
  rw [← sum_high_dice]
  exact Int.add_le_add_right hfaces.sum_le_high e.modifier

/-- The total of a roll is reached by the faces that it shows. -/
theorem reaches_total_roll {σ : Type} [Source σ] (e : Expression) (source : σ) :
    e.Reaches (e.roll source).1.value.total := by
  refine ⟨(throwAll e.dice source).1.map Throw.signedFace, ?_,
    (e.roll source).1.value.total_eq.symm⟩
  have h := faceChoice_throws (throwAll e.dice source).1
  rwa [map_die_throwAll] at h

end Expression

end DiceSum
