import DiceSum.Evaluation
import Mathlib

/-!
# Choices of faces

Whatever its samples are, a roll shows one signed face of each die. A choice of one signed face for
each die need not come from samples, and so says what dice can show without a look at how samples
are turned into faces.

## Main definitions

* `DiceSum.Die.Shows` — the signed faces of a die.
* `DiceSum.Die.low`, `DiceSum.Die.high` — the least and the greatest of them.
* `DiceSum.FaceChoice` — rows of signed faces, one for each die.

## Main results

* `DiceSum.Die.shows_iff` — a signed face is a magnitude from `1` to the number of sides, with the
  sign of the die.
* `DiceSum.FaceChoice.sum_low_le`, `DiceSum.FaceChoice.sum_le_high`,
  `DiceSum.exists_faceChoice_sum_eq` — the sums of the choices: all integers of a range.
-/

namespace DiceSum

theorem Sign.natAbs_apply (s : Sign) (x : Int) : (s.apply x).natAbs = x.natAbs := by
  cases s with
  | plus => rw [apply_plus]
  | minus => rw [apply_minus, Int.natAbs_neg]

/-! ### One die -/

namespace Die

/-- The integers that a die can show: one of its faces with its sign put on. -/
def Shows (d : Die) (x : Int) : Prop :=
  ∃ face : Int, 1 ≤ face ∧ face ≤ d.sides.toNat ∧ x = d.sign.apply face

/-- The least signed face of a die. -/
def low (d : Die) : Int :=
  match d.sign with
  | .plus => 1
  | .minus => -d.sides.toNat

/-- The greatest signed face of a die. -/
def high (d : Die) : Int :=
  match d.sign with
  | .plus => d.sides.toNat
  | .minus => -1

variable {d : Die} {x : Int}

theorem shows_iff :
    d.Shows x ↔ 1 ≤ x.natAbs ∧ x.natAbs ≤ d.sides.toNat ∧ x = d.sign.apply x.natAbs := by
  constructor
  · rintro ⟨face, hlow, hhigh, rfl⟩
    have habs : (face.natAbs : Int) = face := Int.natAbs_of_nonneg (by omega)
    rw [Sign.natAbs_apply, habs]
    exact ⟨by omega, by omega, rfl⟩
  · rintro ⟨hlow, hhigh, hx⟩
    exact ⟨x.natAbs, by omega, by omega, hx⟩

theorem Shows.fits (h : d.Shows x) : Word.Fits x := by
  obtain ⟨-, hle, -⟩ := shows_iff.mp h
  have hsides := d.sides.lt
  rw [Word.fits_iff]
  omega

theorem shows_low (d : Die) : d.Shows d.low := by
  have hsides := d.sides.pos
  rw [Shows, low]
  cases d.sign with
  | plus => exact ⟨1, by omega, by omega, by rw [Sign.apply_plus]⟩
  | minus => exact ⟨d.sides.toNat, by omega, by omega, by rw [Sign.apply_minus]⟩

theorem shows_high (d : Die) : d.Shows d.high := by
  have hsides := d.sides.pos
  rw [Shows, high]
  cases d.sign with
  | plus => exact ⟨d.sides.toNat, by omega, by omega, by rw [Sign.apply_plus]⟩
  | minus => exact ⟨1, by omega, by omega, by rw [Sign.apply_minus]⟩

theorem Shows.low_le (h : d.Shows x) : d.low ≤ x := by
  obtain ⟨face, hlow, hhigh, rfl⟩ := h
  rw [low]
  cases d.sign with
  | plus => simpa using hlow
  | minus => simpa using hhigh

theorem Shows.le_high (h : d.Shows x) : x ≤ d.high := by
  obtain ⟨face, hlow, hhigh, rfl⟩ := h
  rw [high]
  cases d.sign with
  | plus => simpa using hhigh
  | minus => simpa using hlow

theorem shows_iff_between : d.Shows x ↔ d.low ≤ x ∧ x ≤ d.high := by
  refine ⟨fun h => ⟨h.low_le, h.le_high⟩, fun h => ?_⟩
  rw [low, high] at h
  rw [Shows]
  cases hsign : d.sign with
  | plus =>
    rw [hsign] at h
    exact ⟨x, h.1, h.2, (Sign.apply_plus x).symm⟩
  | minus =>
    rw [hsign] at h
    have hlow : -d.sides.toNat ≤ x := h.1
    have hhigh : x ≤ -1 := h.2
    refine ⟨-x, by omega, by omega, ?_⟩
    rw [Sign.apply_minus, Int.neg_neg]

end Die

/-! ### Rows of dice -/

/-- A row of integers that shows one signed face of each die of a row. -/
def FaceChoice (dice : List Die) (faces : List Int) : Prop := List.Forall₂ Die.Shows dice faces

variable {dice : List Die} {faces : List Int}

theorem faceChoice_low (dice : List Die) : FaceChoice dice (dice.map Die.low) := by
  rw [FaceChoice, List.forall₂_map_right_iff, List.forall₂_same]
  exact fun d _ => d.shows_low

theorem faceChoice_high (dice : List Die) : FaceChoice dice (dice.map Die.high) := by
  rw [FaceChoice, List.forall₂_map_right_iff, List.forall₂_same]
  exact fun d _ => d.shows_high

theorem FaceChoice.forall₂_low_le (h : FaceChoice dice faces) :
    List.Forall₂ (· ≤ ·) (dice.map Die.low) faces := by
  rw [List.forall₂_map_left_iff]
  exact h.imp fun d x hx => hx.low_le

theorem FaceChoice.forall₂_le_high (h : FaceChoice dice faces) :
    List.Forall₂ (· ≤ ·) faces (dice.map Die.high) := by
  rw [List.forall₂_map_right_iff]
  exact (h.imp fun d x hx => hx.le_high).flip

theorem FaceChoice.sum_low_le (h : FaceChoice dice faces) :
    (dice.map Die.low).sum ≤ faces.sum :=
  h.forall₂_low_le.sum_le_sum

theorem FaceChoice.sum_le_high (h : FaceChoice dice faces) :
    faces.sum ≤ (dice.map Die.high).sum :=
  h.forall₂_le_high.sum_le_sum

/-- Every integer between the least and the greatest sum of a row of dice is the sum of some choice
of faces. -/
theorem exists_faceChoice_sum_eq {sum : Int} (hlow : (dice.map Die.low).sum ≤ sum)
    (hhigh : sum ≤ (dice.map Die.high).sum) : ∃ faces, FaceChoice dice faces ∧ faces.sum = sum := by
  induction dice generalizing sum with
  | nil => exact ⟨[], .nil, Int.le_antisymm hlow hhigh⟩
  | cons d dice ih =>
    rw [List.map_cons, List.sum_cons] at hlow hhigh
    have hrest : (dice.map Die.low).sum ≤ (dice.map Die.high).sum :=
      (faceChoice_low dice).sum_le_high
    have hdie : d.low ≤ d.high := d.shows_low.le_high
    -- the first die shows as little as the others, at their greatest, allow
    obtain ⟨x, hx, hmin, hmax⟩ : ∃ x, (d.low ≤ x ∧ x ≤ d.high) ∧
        (dice.map Die.low).sum ≤ sum - x ∧ sum - x ≤ (dice.map Die.high).sum :=
      ⟨max d.low (sum - (dice.map Die.high).sum), by omega, by omega, by omega⟩
    obtain ⟨faces, hfaces, hsum⟩ := ih hmin hmax
    refine ⟨x :: faces, .cons (Die.shows_iff_between.mpr hx) hfaces, ?_⟩
    rw [List.sum_cons, hsum]
    omega

/-! ### Throws -/

theorem Throw.shows_signedFace (t : Throw) : t.die.Shows t.signedFace :=
  ⟨t.face, t.sample.one_le_face t.die.sides, t.sample.face_le t.die.sides, rfl⟩

/-- The signed faces of some throws are a choice of faces for their dice. -/
theorem faceChoice_throws (throws : List Throw) :
    FaceChoice (throws.map Throw.die) (throws.map Throw.signedFace) := by
  rw [FaceChoice, List.forall₂_map_left_iff, List.forall₂_map_right_iff, List.forall₂_same]
  exact fun t _ => t.shows_signedFace

end DiceSum
