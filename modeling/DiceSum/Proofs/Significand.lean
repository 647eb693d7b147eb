import DiceSum.Sample.Face
import Mathlib

/-!
# Rounded products have few digits

A rounded product has at most 53 significant bits. So a product below `2 ^ 63` lies well below it,
and one can be added to its integer part without leaving the 64-bit range.

## Main definitions

* `DiceSum.Sample.Value.Below63` — the values below `2 ^ 63`, and what is no number.

## Main results

* `DiceSum.Sample.exists_nearest_eq` — the significant bits of a rounded number.
* `DiceSum.Sample.Value.fits_floor_add_one`, `DiceSum.Sample.Value.below63_of_fits_floor_add_one` —
  the integer part of such a product, and of no other value, leaves room for one more.
-/

namespace DiceSum.Sample

theorem halveEven_le (n s : Nat) : halveEven n s ≤ n / 2 ^ s + 1 := by
  simp only [halveEven, Nat.shiftRight_eq_div_pow]
  split
  · omega
  · split <;> omega

/-- A rounded number is a power of two times a number of at most 53 bits, or `2 ^ 53` itself when
the rounding has carried. -/
theorem exists_nearest_eq (n : Nat) : ∃ m s, m ≤ 2 ^ 53 ∧ nearest n = m * 2 ^ s := by
  refine ⟨halveEven n (n.log2 - 52), n.log2 - 52, ?_, Nat.shiftLeft_eq _ _⟩
  have hn : n < 2 ^ (n.log2 + 1) := Nat.lt_log2_self
  have hpow : 2 ^ (n.log2 + 1) ≤ 2 ^ 53 * 2 ^ (n.log2 - 52) := by
    rw [← Nat.pow_add]
    exact Nat.pow_le_pow_right (by decide) (by omega)
  have hquot : n / 2 ^ (n.log2 - 52) < 2 ^ 53 :=
    Nat.div_lt_of_lt_mul (by rw [Nat.mul_comm]; omega)
  have := halveEven_le n (n.log2 - 52)
  omega

/-- The numbers of units in `2 ^ (-53)` and in one are powers of two; the powers themselves are too
great to be looked at. -/
theorem exists_grain_eq : ∃ k j, grain = 2 ^ k ∧ whole = 2 ^ j ∧ j = k + 53 := by
  have hpow (k : Nat) : 1 <<< k = 2 ^ k := Nat.one_shiftLeft k
  exact ⟨1021, 1074, grain.eq_1.trans (hpow 1021), whole.eq_1.trans (hpow 1074), rfl⟩

theorem exists_whole_eq : ∃ k, whole = 2 ^ k := by
  obtain ⟨-, j, -, hwhole, -⟩ := exists_grain_eq
  exact ⟨j, hwhole⟩

theorem whole_pos : 0 < whole := by
  obtain ⟨k, hk⟩ := exists_whole_eq
  rw [hk]
  exact Nat.two_pow_pos k

/-- There is no rounded number between `2 ^ 63 - 1` and `2 ^ 63`, in whatever units. -/
theorem nearest_lt {n : Nat} (k : Nat) (h : nearest n < 2 ^ 63 * 2 ^ k) :
    nearest n < (2 ^ 63 - 1) * 2 ^ k := by
  obtain ⟨m, s, hm, hn⟩ := exists_nearest_eq n
  rw [hn] at h ⊢
  rcases Nat.lt_or_ge k s with hs | hs
  · -- a multiple of two
    have hpow : 2 ^ s = 2 * 2 ^ (s - (k + 1)) * 2 ^ k := by
      rw [← Nat.pow_succ', ← Nat.pow_add]
      congr 1
      omega
    rw [hpow, ← Nat.mul_assoc] at h ⊢
    have hlt : m * (2 * 2 ^ (s - (k + 1))) < 2 ^ 63 := Nat.lt_of_mul_lt_mul_right h
    refine Nat.mul_lt_mul_of_pos_right ?_ (Nat.two_pow_pos k)
    rw [Nat.mul_left_comm] at hlt ⊢
    omega
  · -- at most `2 ^ 53`
    calc m * 2 ^ s ≤ 2 ^ 53 * 2 ^ k :=
          Nat.mul_le_mul hm (Nat.pow_le_pow_right (by decide) hs)
      _ < (2 ^ 63 - 1) * 2 ^ k := Nat.mul_lt_mul_of_pos_right (by decide) (Nat.two_pow_pos k)

namespace Value

/-- A value below `2 ^ 63`, or one that is no number. -/
def Below63 : Value → Prop
  | nan => True
  | infinite s => s = .minus
  | finite units => units < 2 ^ 63 * whole

instance : (v : Value) → Decidable v.Below63
  | nan => inferInstanceAs (Decidable True)
  | infinite s => inferInstanceAs (Decidable (s = .minus))
  | finite units => inferInstanceAs (Decidable (units < 2 ^ 63 * whole))

theorem fits_saturate_add_one {x : Int} (h : x < Word.greatest) :
    Word.Fits (Word.saturate x + 1) := by
  simp only [Word.greatest] at h
  rw [Word.fits_iff]
  simp only [Word.saturate, Word.least, Word.greatest]
  omega

/-- A rounded value is the nearest number with the sign put on, or the infinity of the sign. -/
theorem round_eq (units : Int) :
    ∃ s, round units = finite (Sign.apply s (nearest units.natAbs)) ∨ round units = infinite s := by
  refine ⟨if units < 0 then .minus else .plus, ?_⟩
  rw [round]
  exact (Decidable.em _).imp (if_pos ·) (if_neg ·)

theorem fits_floor_finite_add_one {s : Sign} {n : Nat}
    (h : (finite (s.apply (nearest n))).Below63) :
    Word.Fits ((finite (s.apply (nearest n))).floor + 1) := by
  have hpos : (0 : Int) < whole := Int.natCast_pos.mpr whole_pos
  refine fits_saturate_add_one (Int.ediv_lt_of_lt_mul hpos ?_)
  cases s with
  | plus =>
    rw [Below63, Sign.apply_plus] at h
    obtain ⟨k, hk⟩ := exists_whole_eq
    have hlt : nearest n < (2 ^ 63 - 1) * whole := by
      rw [hk]
      refine nearest_lt k ?_
      rw [← hk]
      omega
    rw [Sign.apply_plus, Word.greatest]
    omega
  | minus =>
    have hmul : 0 < Word.greatest * (whole : Int) := Int.mul_pos (by decide) hpos
    rw [Sign.apply_minus]
    omega

theorem fits_floor_infinite_add_one {s : Sign} (h : (infinite s).Below63) :
    Word.Fits ((infinite s).floor + 1) := by
  have hs : s = .minus := h
  subst hs
  decide

/-- One can be added to the integer part of a product below `2 ^ 63`. -/
theorem fits_floor_add_one {v : Value} {sides : Quantity} (h : (v.times sides).Below63) :
    Word.Fits ((v.times sides).floor + 1) := by
  cases v with
  | nan =>
    rw [times]
    decide
  | infinite s => exact fits_floor_infinite_add_one h
  | finite units =>
    rw [times] at h ⊢
    obtain ⟨s, hs | hs⟩ := round_eq (units * sides.toNat)
    · rw [hs] at h ⊢
      exact fits_floor_finite_add_one h
    · rw [hs] at h ⊢
      exact fits_floor_infinite_add_one h

/-- One can be added to the integer part of no other value. -/
theorem below63_of_fits_floor_add_one {v : Value} (h : Word.Fits (v.floor + 1)) : v.Below63 := by
  cases v with
  | nan => trivial
  | infinite s =>
    cases s with
    | plus => exact absurd h (by decide)
    | minus => rfl
  | finite units =>
    have hpos : (0 : Int) < whole := Int.natCast_pos.mpr whole_pos
    have hlt : units / whole < 2 ^ 63 := by
      rw [floor, Word.fits_iff] at h
      simp only [Word.saturate, Word.least, Word.greatest] at h
      omega
    exact (Int.ediv_lt_iff_lt_mul hpos).mp hlt

end Value

end DiceSum.Sample
