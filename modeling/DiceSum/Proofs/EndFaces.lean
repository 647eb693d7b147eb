import DiceSum.Proofs.Significand

/-!
# Faces at the ends of the unit interval

Zero selects the first face of every die, and the greatest fraction below one selects the last,
although its product with the number of sides is rounded: the last bit of such a product is at most
one, and rounding does not take a number below an integer that it is not below itself.

## Main definitions

* `DiceSum.Sample.zero`, `DiceSum.Sample.belowOne` — the two samples.

## Main results

* `DiceSum.Sample.mul_two_pow_le_nearest` — a lower bound of a rounded number.
* `DiceSum.Sample.face_zero`, `DiceSum.Sample.face_belowOne` — the faces that they select.
-/

namespace DiceSum.Sample

/-- The sample `0`. -/
def zero : Sample := ofFraction 0

/-- The greatest sample `k / 2 ^ 53` below one. -/
def belowOne : Sample := ofFraction 0x1fffffffffffff

/-! ### A lower bound of rounded numbers -/

theorem div_le_halveEven (n s : Nat) : n / 2 ^ s ≤ halveEven n s := by
  simp only [halveEven, Nat.shiftRight_eq_div_pow]
  split
  · omega
  · split <;> omega

/-- A number stays above a multiple of its last bit when it is rounded. -/
theorem mul_two_pow_le_nearest {a t n : Nat} (ht : n.log2 - 52 ≤ t) (h : a * 2 ^ t ≤ n) :
    a * 2 ^ t ≤ nearest n := by
  -- in units of the last bit of `n` the bound is an integer, so the quotient is not below it
  have hpow : a * 2 ^ t = a * 2 ^ (t - (n.log2 - 52)) * 2 ^ (n.log2 - 52) := by
    rw [Nat.mul_assoc, ← Nat.pow_add, Nat.sub_add_cancel ht]
  rw [hpow] at h ⊢
  rw [nearest, Nat.shiftLeft_eq]
  refine Nat.mul_le_mul_right _ (le_trans ?_ (div_le_halveEven _ _))
  exact (Nat.le_div_iff_mul_le (Nat.two_pow_pos _)).mpr h

/-- The last bit of a product of `belowOne` is at most one, so that the product is not rounded below
the integer under it. -/
theorem pred_mul_whole_le_nearest (sides : Quantity) :
    (sides.toNat - 1) * whole ≤ nearest (0x1fffffffffffff * grain * sides.toNat) := by
  have hpos := sides.pos
  have hsides := sides.lt
  obtain ⟨k, j, hgrain, hwhole, rfl⟩ := exists_grain_eq
  rw [hgrain, hwhole]
  have hpow := Nat.two_pow_pos k
  refine mul_two_pow_le_nearest ?_ ?_
  · have hne : 0x1fffffffffffff * 2 ^ k * sides.toNat ≠ 0 := by positivity
    have hlt : 0x1fffffffffffff * 2 ^ k * sides.toNat < 2 ^ (k + 85) := by
      rw [Nat.pow_add, Nat.mul_right_comm, Nat.mul_comm (2 ^ k)]
      exact Nat.mul_lt_mul_of_pos_right (by omega) hpow
    have hlog := (Nat.log2_lt hne).mpr hlt
    omega
  · rw [Nat.pow_add, Nat.mul_comm (2 ^ k), ← Nat.mul_assoc, Nat.mul_right_comm _ (2 ^ k)]
    exact Nat.mul_le_mul_right _ (by omega)

/-! ### The two faces -/

theorem face_zero (sides : Quantity) : zero.face sides = 1 := by
  have hsides := sides.pos
  have hvalue : zero.value = .finite 0 := by decide
  have hround : Value.round 0 = .finite 0 := by decide
  have hfloor : (Value.finite 0).floor = 0 := by rw [Value.floor, Int.zero_ediv]; rfl
  rw [face, hvalue, Value.times, Int.zero_mul, hround, hfloor]
  omega

theorem le_floor_round {n a : Nat} (ha : Word.Fits a) (h : a * whole ≤ nearest n) :
    (a : Int) ≤ (Value.round n).floor := by
  have hsign : ¬ (n : Int) < 0 := by omega
  simp only [Value.round, if_neg hsign, Int.natAbs_natCast]
  split
  · rw [Sign.apply_plus, Value.floor]
    refine (Word.saturate_of_fits ha).ge.trans (Word.saturate_le_saturate ?_)
    refine (Int.le_ediv_iff_mul_le (Int.natCast_pos.mpr whole_pos)).mpr ?_
    exact_mod_cast h
  · exact ha.2

theorem face_belowOne (sides : Quantity) : belowOne.face sides = sides.toNat := by
  have hpos := sides.pos
  have hlt := sides.lt
  have hfits : Word.Fits ((sides.toNat - 1 : Nat) : Int) := by
    rw [Word.fits_iff]
    omega
  have hfloor := le_floor_round hfits (pred_mul_whole_le_nearest sides)
  rw [face, belowOne, value_ofFraction (by decide), Value.times, ← Int.natCast_mul]
  omega

end DiceSum.Sample
