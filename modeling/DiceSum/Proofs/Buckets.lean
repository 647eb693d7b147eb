import DiceSum.Proofs.NearestEven

/-!
# The faces as buckets of samples

The product of a sample and a number of sides is rounded before its integer part is taken, and the
face is brought into the range of the die at the end. Neither disturbs the order of the samples, and
samples from zero to below one do not need the second: the greatest of them is one unit of
`2 ^ (-53)` below one, and no rounding goes that far.

## Main definitions

* `DiceSum.Sample.Value.Le` — the order of the values that are not `nan`.
* `DiceSum.Sample.Bucket` — the integer part of a rounded product, against the exact product.
* `DiceSum.Sample.fractionOf` — for each face a `k` whose sample `k / 2 ^ 53` selects it.

## Main results

* `DiceSum.Sample.face_le_face` — a greater sample selects no smaller face.
* `DiceSum.Sample.Value.below63_times_iff`, `DiceSum.Sample.Value.below63_times_of_lt_one` — the
  exact products that are rounded to less than `2 ^ 63`, and those of the samples below one.
* `DiceSum.Sample.bucket_of_unit` — the range of a die is not left by samples from zero to below
  one, and their face is that of the exact product, or the next one if the product has been rounded
  to an integer.
* `DiceSum.Sample.face_fractionOf` — every face is selected.
* `DiceSum.Sample.face_buckets` — all of this for every number of sides.
-/

namespace DiceSum.Sample

/-! ### Order -/

/-- The order of the values that are not `nan`. -/
inductive Value.Le : Value → Value → Prop
  | bottom {v : Value} (h : v ≠ nan) : Le (infinite .minus) v
  | top {v : Value} (h : v ≠ nan) : Le v (infinite .plus)
  | finite {units units' : Int} (h : units ≤ units') : Le (finite units) (finite units')

namespace Value

variable {v v' : Value}

/-- Numbers are ordered as rational numbers. -/
theorem le_iff_of_number? {q q' : ℚ} (h : v.number? = some q) (h' : v'.number? = some q') :
    v.Le v' ↔ q ≤ q' := by
  obtain ⟨units, rfl, rfl⟩ := number?_eq_some.mp h
  obtain ⟨units', rfl, rfl⟩ := number?_eq_some.mp h'
  rw [div_le_div_iff_of_pos_right two_pow_1074_pos, Int.cast_le]
  exact ⟨fun | .finite h => h, .finite⟩

theorem limit_pos : 0 < limit := by
  obtain ⟨k, hlimit, -⟩ := exists_limit_eq
  rw [hlimit]
  exact Nat.two_pow_pos k

/-- The infinities begin at the limit. -/
theorem round_eq_ite (units : Int) :
    round units = if limit ≤ rounded units then infinite .plus
      else if rounded units ≤ -limit then infinite .minus else finite (rounded units) := by
  have hpos := limit_pos
  rw [round_eq_rounded, rounded]
  split_ifs <;> first | rfl | omega

theorem round_ne_nan (units : Int) : round units ≠ nan := by
  rw [round_eq_ite]
  split_ifs <;> simp

theorem round_mono {units units' : Int} (h : units ≤ units') :
    (round units).Le (round units') := by
  have hle := rounded_mono h
  have hnan := round_ne_nan units'
  rw [round_eq_ite units]
  split_ifs with hplus hminus
  · rw [round_eq_ite, if_pos (by omega)]
    exact .top (by simp)
  · exact .bottom hnan
  · rw [round_eq_ite] at hnan ⊢
    split_ifs at hnan ⊢ with hplus' hminus'
    · exact .top (by simp)
    · omega
    · exact .finite hle

theorem times_ne_nan (h : v ≠ nan) (sides : Quantity) : v.times sides ≠ nan := by
  cases v with
  | nan => exact absurd rfl h
  | infinite s => exact h
  | finite units => exact round_ne_nan _

theorem times_mono (h : v.Le v') (sides : Quantity) : (v.times sides).Le (v'.times sides) := by
  cases h with
  | bottom h => exact .bottom (times_ne_nan h sides)
  | top h => exact .top (times_ne_nan h sides)
  | finite h => exact round_mono (Int.mul_le_mul_of_nonneg_right h (Int.natCast_nonneg _))

theorem fits_floor (v : Value) : Word.Fits v.floor := by
  cases v with
  | nan => exact Word.fits_zero
  | infinite s => cases s <;> decide
  | finite units => exact Word.fits_saturate _

theorem floor_mono (h : v.Le v') : v.floor ≤ v'.floor := by
  cases h with
  | bottom h => exact (fits_floor v').1
  | top h => exact (fits_floor v).2
  | finite h =>
    exact Word.saturate_le_saturate (Int.ediv_le_ediv (Int.natCast_pos.mpr whole_pos) h)

theorem Le.below63 (h : v.Le v') (h' : v'.Below63) : v.Below63 := by
  cases h with
  | bottom h => rfl
  | top h => cases h'
  | finite h => exact Int.lt_of_le_of_lt h h'

end Value

/-- A greater sample selects no smaller face. -/
theorem face_le_face {x y : Sample} (h : x.value.Le y.value) (sides : Quantity) :
    x.face sides ≤ y.face sides := by
  have hfloor := Value.floor_mono (Value.times_mono h sides)
  rw [face, face]
  omega

/-! ### Products near an integer -/

theorem grain_pos : 0 < grain := by
  obtain ⟨k, -, hgrain, -⟩ := exists_grain_eq
  rw [hgrain]
  exact Nat.two_pow_pos k

theorem whole_eq : whole = 2 ^ 53 * grain := by
  obtain ⟨k, j, hgrain, hwhole, hj⟩ := exists_grain_eq
  rw [hgrain, hwhole, hj, Nat.add_comm, Nat.pow_add]

/-- A magnitude below one is at least one unit of `2 ^ (-53)` below it. -/
theorem add_grain_le_whole {m t : Nat} (hm : m < 2 ^ 53) (h : m * 2 ^ t < whole) :
    m * 2 ^ t + grain ≤ whole := by
  obtain ⟨k, -, hgrain, -⟩ := exists_grain_eq
  rw [whole_eq, hgrain] at h ⊢
  obtain ⟨a, ha, hle⟩ : ∃ a, a < 2 ^ 53 ∧ m * 2 ^ t ≤ a * 2 ^ k := by
    rcases Nat.le_total t k with ht | ht
    · exact ⟨m, hm, Nat.mul_le_mul_left m (Nat.pow_le_pow_right (by decide) ht)⟩
    · refine ⟨m * 2 ^ (t - k), Nat.lt_of_mul_lt_mul_right (a := 2 ^ k) ?_, ?_⟩
      · rwa [Nat.mul_assoc, ← Nat.pow_add, Nat.sub_add_cancel ht]
      · rw [Nat.mul_assoc, ← Nat.pow_add, Nat.sub_add_cancel ht]
  calc m * 2 ^ t + 2 ^ k ≤ a * 2 ^ k + 2 ^ k := Nat.add_le_add_right hle _
    _ = (a + 1) * 2 ^ k := (Nat.succ_mul a _).symm
    _ ≤ 2 ^ 53 * 2 ^ k := Nat.mul_le_mul_right _ ha

/-- A number is moved by at most one half of its last bit. -/
theorem two_mul_nearest_le (n : Nat) : 2 * nearest n ≤ 2 * n + 2 ^ (n.log2 - 52) := by
  have hsplit := Nat.div_add_mod' n (2 ^ (n.log2 - 52))
  rw [nearest_eq]
  rcases halveEven_cases n (n.log2 - 52) with ⟨h, -⟩ | ⟨h, hr⟩
  · rw [h]
    omega
  · rw [h, Nat.succ_mul (n / _)]
    omega

/-- A number below `a` is rounded up by less than `a` units of `2 ^ (-53)`. -/
theorem nearest_lt_add {n a : Nat} (h : n < a * whole) : nearest n < n + a * grain := by
  have hmove := two_mul_nearest_le n
  have hpos : 0 < a * grain := by
    refine Nat.mul_pos (Nat.pos_of_ne_zero ?_) grain_pos
    rintro rfl
    omega
  rcases Nat.lt_or_ge 52 n.log2 with hlog | hlog
  · have hlow := two_pow_le_of_log2 hlog
    rw [whole_eq, Nat.mul_left_comm] at h
    omega
  · rw [Nat.sub_eq_zero_of_le hlog] at hmove
    omega

/-- The multiples of one around a number stay around it when it is rounded. -/
theorem nearest_mem_Icc {n a : Nat} (ha : a ≤ 2 ^ 52) (h : n < a * whole) :
    nearest n ∈ Set.Icc (n / whole * whole) ((n / whole + 1) * whole) := by
  have hdown : n / whole * whole ≤ n := Nat.div_mul_le_self _ _
  have hup : n ≤ (n / whole + 1) * whole := by
    rw [Nat.mul_comm]
    exact (Nat.lt_mul_div_succ n whole_pos).le
  obtain ⟨j, hwhole⟩ := exists_whole_eq
  rw [hwhole] at h hdown hup ⊢
  have hlog : n.log2 - 52 ≤ j := by
    by_cases hn : n = 0
    · subst hn
      simp
    · have hlt : n < 2 ^ (52 + j) := by
        rw [Nat.pow_add]
        exact h.trans_le (Nat.mul_le_mul_right _ ha)
      have := (Nat.log2_lt hn).mpr hlt
      omega
  exact ⟨mul_two_pow_le_nearest hlog hdown, nearest_le_mul_two_pow hlog hup⟩

/-- Rounding does not change the integer part, or it reaches the next integer and no more. -/
theorem nearest_div_whole {n a : Nat} (ha : a ≤ 2 ^ 52) (h : n < a * whole) :
    nearest n / whole = n / whole ∨ nearest n = (n / whole + 1) * whole := by
  obtain ⟨hdown, hup⟩ := nearest_mem_Icc ha h
  rcases Nat.lt_or_eq_of_le hup with hlt | heq
  · refine .inl (Nat.le_antisymm ?_ ?_)
    · exact Nat.le_of_lt_succ ((Nat.div_lt_iff_lt_mul whole_pos).mpr hlt)
    · exact (Nat.le_div_iff_mul_le whole_pos).mpr hdown
  · exact .inr heq

/-- The rounded product of a number below one lies below the number of sides. -/
theorem nearest_mul_lt {m t : Nat} (hm : m < 2 ^ 53) (h : m * 2 ^ t < whole) (sides : Quantity) :
    nearest (m * 2 ^ t * sides.toNat) < sides.toNat * whole := by
  have hbelow : m * 2 ^ t * sides.toNat < sides.toNat * whole := by
    rw [Nat.mul_comm]
    exact Nat.mul_lt_mul_of_pos_left h sides.pos
  calc nearest (m * 2 ^ t * sides.toNat) < m * 2 ^ t * sides.toNat + sides.toNat * grain :=
        nearest_lt_add hbelow
    _ = sides.toNat * (m * 2 ^ t + grain) := by rw [Nat.mul_add, Nat.mul_comm sides.toNat (m * _)]
    _ ≤ sides.toNat * whole := Nat.mul_le_mul_left _ (add_grain_le_whole hm h)

/-! ### Units and numbers -/

namespace Value

theorem exists_whole_eq_two_pow : ∃ k, whole = 2 ^ k ∧ k = 1074 := by
  have hpow (k : Nat) : 1 <<< k = 2 ^ k := Nat.one_shiftLeft k
  exact ⟨1074, whole.eq_1.trans (hpow 1074), rfl⟩

theorem cast_whole : (whole : ℚ) = 2 ^ 1074 := by
  obtain ⟨k, hwhole, hk⟩ := exists_whole_eq_two_pow
  rw [hwhole, hk, Nat.cast_pow, Nat.cast_ofNat]

theorem number?_mul_whole (a : Nat) : (finite (a * whole : Nat)).number? = some (a : ℚ) := by
  rw [number?, ← cast_whole, Int.cast_natCast, Nat.cast_mul,
    mul_div_cancel_right₀ _ (Nat.cast_ne_zero.mpr whole_pos.ne')]

theorem floor_div_two_pow (units : Int) : ⌊(units / 2 ^ 1074 : ℚ)⌋ = units / whole := by
  rw [← cast_whole, Rat.floor_intCast_div_natCast]

/-- The sample `k / 2 ^ 53` has that value. -/
theorem number?_ofFraction {k : Nat} (h : k < 2 ^ 53) :
    (ofFraction k).value.number? = some ((k : ℚ) / 2 ^ 53) := by
  have hpos : (grain : ℚ) ≠ 0 := Nat.cast_ne_zero.mpr grain_pos.ne'
  have hcast : (2 : ℚ) ^ 1074 = 2 ^ 53 * grain := by
    rw [← cast_whole, whole_eq, Nat.cast_mul, Nat.cast_pow, Nat.cast_ofNat]
  rw [value_ofFraction h, number?, hcast, Int.cast_natCast, Nat.cast_mul,
    mul_div_mul_right _ _ hpos]

theorem mul_whole_le_limit {a : Nat} (ha : a ≤ 2 ^ 64) : a * whole ≤ limit := by
  obtain ⟨k, hwhole, hk⟩ := exists_whole_eq_two_pow
  obtain ⟨j, hlimit, hj⟩ := exists_limit_eq
  calc a * whole ≤ 2 ^ 64 * whole := Nat.mul_le_mul_right _ ha
    _ = 2 ^ (64 + k) := by rw [hwhole, Nat.pow_add]
    _ ≤ 2 ^ j := Nat.pow_le_pow_right (by decide) (by omega)
    _ = limit := hlimit.symm

theorem below63_round_iff (units : Int) :
    (round units).Below63 ↔ units + (2 ^ 9 * whole : Nat) < (2 ^ 63 * whole : Nat) := by
  have hlimit := mul_whole_le_limit (a := 2 ^ 63) (by decide)
  have hpos := whole_pos
  have hrounded : (round units).Below63 ↔ rounded units < (2 ^ 63 * whole : Nat) := by
    rw [round_eq_ite]
    split_ifs with hplus hminus
    · refine iff_of_false (by simp [Below63]) (by omega)
    · refine iff_of_true rfl (by omega)
    · rw [Below63, Nat.cast_mul]
      rfl
  obtain ⟨k, hwhole, -⟩ := exists_whole_eq_two_pow
  have hnearest := nearest_lt_two_pow_iff units.natAbs (9 + k)
  rw [Nat.pow_add, ← hwhole, ← Nat.mul_assoc] at hnearest
  rw [hrounded, rounded]
  split <;> omega

/-- The products that are rounded to a value below `2 ^ 63` end half-way between that and the number
below it. -/
theorem below63_times_iff {v : Value} {q : ℚ} (hq : v.number? = some q) (sides : Quantity) :
    (v.times sides).Below63 ↔ q * sides.toNat < 2 ^ 63 - 2 ^ 9 := by
  obtain ⟨units, rfl, rfl⟩ := number?_eq_some.mp hq
  have hcast : units * sides.toNat + (2 ^ 9 * whole : Nat) < (2 ^ 63 * whole : Nat) ↔
      (units : ℚ) * sides.toNat + 2 ^ 9 * whole < 2 ^ 63 * whole := by exact_mod_cast Iff.rfl
  rw [times, below63_round_iff, hcast, cast_whole, div_mul_eq_mul_div, div_lt_iff₀ two_pow_1074_pos,
    sub_mul, lt_sub_iff_add_lt]

/-- No sample below one has a product of `2 ^ 63` or more. -/
theorem below63_times_of_lt_one {v : Value} {q : ℚ} (hq : v.number? = some q) (h : q < 1)
    (sides : Quantity) : (v.times sides).Below63 := by
  have hpos : (0 : ℚ) < sides.toNat := by exact_mod_cast sides.pos
  have hsides : (sides.toNat : ℚ) < 4294967296 := by exact_mod_cast sides.lt
  rw [below63_times_iff hq]
  calc q * sides.toNat < sides.toNat := mul_lt_of_lt_one_left hpos h
    _ < 2 ^ 63 - 2 ^ 9 := hsides.trans (by norm_num)

variable {n : Nat} {sides : Quantity}

theorem times_natCast (h : nearest (n * sides.toNat) < sides.toNat * whole) :
    (finite n).times sides = finite (nearest (n * sides.toNat)) := by
  have hsides := sides.lt
  have hlimit : sides.toNat * whole ≤ limit := mul_whole_le_limit (by omega)
  rw [times, ← Int.natCast_mul, round_eq_rounded, natAbs_rounded, Int.natAbs_natCast,
    if_pos (h.trans_le hlimit), rounded, if_neg (by omega), Int.natAbs_natCast]

theorem floor_times_natCast (h : nearest (n * sides.toNat) < sides.toNat * whole) :
    ((finite n).times sides).floor = (nearest (n * sides.toNat) / whole : Nat) := by
  have hsides := sides.lt
  have hlt : nearest (n * sides.toNat) / whole < sides.toNat :=
    (Nat.div_lt_iff_lt_mul whole_pos).mpr h
  rw [times_natCast h, floor, ← Int.natCast_ediv]
  generalize nearest (n * sides.toNat) / whole = a at hlt ⊢
  rw [Word.saturate_of_fits]
  rw [Word.fits_iff]
  omega

end Value

/-! ### Samples from zero to below one -/

/-- The value `v` of a rounded product lies in a bucket of a die without being brought there, and the
bucket is that of the exact product `q`, or the next one if `v` is the integer between them. -/
structure Bucket (sides : Quantity) (q : ℚ) (v : Value) : Prop where
  number : ∃ p, v.number? = some p ∧ v.floor = ⌊p⌋
  one_le : 1 ≤ v.floor + 1
  le_sides : v.floor + 1 ≤ sides.toNat
  floor_eq : v.floor = ⌊q⌋ ∨ (v.floor = ⌊q⌋ + 1 ∧ v.number? = some ((⌊q⌋ : ℚ) + 1))

theorem Bucket.face_eq {x : Sample} {sides : Quantity} {q : ℚ}
    (h : Bucket sides q (x.value.times sides)) :
    x.face sides = (x.value.times sides).floor + 1 := by
  have hlow := h.one_le
  have hhigh := h.le_sides
  rw [face]
  omega

theorem bucket_natCast {m t : Nat} (hm : m < 2 ^ 53) (h : m * 2 ^ t < whole) (sides : Quantity) :
    Bucket sides ((m * 2 ^ t : Nat) / 2 ^ 1074 * sides.toNat)
      ((Value.finite (m * 2 ^ t : Nat)).times sides) := by
  have hsides := sides.lt
  have hnearest := nearest_mul_lt hm h sides
  generalize m * 2 ^ t = n at h hnearest ⊢
  have hvalue := Value.times_natCast hnearest
  have hfloor := Value.floor_times_natCast hnearest
  have hexact : ⌊(n / 2 ^ 1074 * sides.toNat : ℚ)⌋ = (n * sides.toNat / whole : Nat) := by
    rw [div_mul_eq_mul_div, ← Nat.cast_mul, ← Int.cast_natCast, Value.floor_div_two_pow,
      Int.natCast_ediv]
  refine ⟨⟨_, by rw [hvalue]; rfl, ?_⟩, ?_, ?_, ?_⟩
  · rw [hfloor, Value.floor_div_two_pow, Int.natCast_ediv]
  · rw [hfloor]
    exact Int.le_add_of_nonneg_left (Int.natCast_nonneg _)
  · rw [hfloor]
    exact_mod_cast (Nat.div_lt_iff_lt_mul whole_pos).mpr hnearest
  · have hbelow : n * sides.toNat < sides.toNat * whole := by
      rw [Nat.mul_comm]
      exact Nat.mul_lt_mul_of_pos_left h sides.pos
    rw [hfloor, hexact, hvalue]
    refine (nearest_div_whole (by omega) hbelow).imp (congrArg _) fun heq => ⟨?_, ?_⟩
    · rw [heq, Nat.mul_div_cancel _ whole_pos]
      rfl
    · rw [heq, Value.number?_mul_whole, Nat.cast_succ, Int.cast_natCast]

theorem bucket_of_unit {x : Sample} {q : ℚ} (hq : x.value.number? = some q) (h0 : 0 ≤ q)
    (h1 : q < 1) (sides : Quantity) : Bucket sides (q * sides.toNat) (x.value.times sides) := by
  obtain ⟨units, hunits, rfl⟩ := Value.number?_eq_some.mp hq
  obtain ⟨m, t, hm, hmag⟩ := exists_natAbs_eq hunits
  have hnonneg : 0 ≤ units := by
    rw [le_div_iff₀ two_pow_1074_pos, zero_mul] at h0
    exact_mod_cast h0
  have hlt : units < whole := by
    rw [div_lt_one two_pow_1074_pos, ← Value.cast_whole] at h1
    exact_mod_cast h1
  obtain rfl : units = (m * 2 ^ t : Nat) := by omega
  rw [hunits]
  exact bucket_natCast hm (Int.ofNat_lt.mp hlt) sides

/-! ### Every face is selected -/

/-- The least `k` for which the exact product of `k / 2 ^ 53` is not below the integer under a
face. -/
def fractionOf (sides : Quantity) (face : Nat) : Nat :=
  ((face - 1) * 2 ^ 53 + (sides.toNat - 1)) / sides.toNat

variable {sides : Quantity} {f : Nat}

theorem fractionOf_lt (hhigh : f ≤ sides.toNat) : fractionOf sides f < 2 ^ 53 := by
  have hpos := sides.pos
  have hsides := sides.lt
  refine (Nat.div_lt_iff_lt_mul hpos).mpr ?_
  omega

theorem fractionOf_mul (sides : Quantity) (f : Nat) :
    (f - 1) * 2 ^ 53 ≤ fractionOf sides f * sides.toNat ∧
      fractionOf sides f * sides.toNat ≤ (f - 1) * 2 ^ 53 + (sides.toNat - 1) := by
  have hpos := sides.pos
  have hmod := Nat.mod_lt ((f - 1) * 2 ^ 53 + (sides.toNat - 1)) hpos
  have hsplit := Nat.div_add_mod' ((f - 1) * 2 ^ 53 + (sides.toNat - 1)) sides.toNat
  rw [fractionOf]
  omega

/-- The rounded product of such a fraction lies in the bucket of the face. -/
theorem nearest_fractionOf_mul (hlow : 1 ≤ f) (hhigh : f ≤ sides.toNat) :
    nearest (fractionOf sides f * grain * sides.toNat) < f * whole ∧
      (f - 1) * whole ≤ nearest (fractionOf sides f * grain * sides.toNat) := by
  have hsides := sides.lt
  have hgrain := grain_pos
  obtain ⟨habove, hbelow⟩ := fractionOf_mul sides f
  rw [Nat.mul_right_comm]
  generalize fractionOf sides f * sides.toNat = product at habove hbelow ⊢
  have hup : product * grain < f * whole := by
    rw [whole_eq, ← Nat.mul_assoc]
    exact Nat.mul_lt_mul_of_pos_right (by omega) hgrain
  have hdown : (f - 1) * whole ≤ product * grain := by
    rw [whole_eq, ← Nat.mul_assoc]
    exact Nat.mul_le_mul_right _ habove
  constructor
  · calc nearest (product * grain) < product * grain + f * grain := nearest_lt_add hup
      _ = (product + f) * grain := (Nat.add_mul _ _ _).symm
      _ ≤ f * 2 ^ 53 * grain := Nat.mul_le_mul_right _ (by omega)
      _ = f * whole := by rw [whole_eq, Nat.mul_assoc]
  · calc (f - 1) * whole ≤ product * grain / whole * whole :=
          Nat.mul_le_mul_right _ ((Nat.le_div_iff_mul_le whole_pos).mpr hdown)
      _ ≤ nearest (product * grain) := (nearest_mem_Icc (by omega) hup).1

theorem face_fractionOf (hlow : 1 ≤ f) (hhigh : f ≤ sides.toNat) :
    (ofFraction (fractionOf sides f)).face sides = f := by
  obtain ⟨hbelow, habove⟩ := nearest_fractionOf_mul hlow hhigh
  have hfloor := Value.floor_times_natCast (hbelow.trans_le (Nat.mul_le_mul_right _ hhigh))
  have hquot : nearest (fractionOf sides f * grain * sides.toNat) / whole = f - 1 := by
    refine Nat.le_antisymm ?_ ((Nat.le_div_iff_mul_le whole_pos).mpr habove)
    exact Nat.le_sub_one_of_lt ((Nat.div_lt_iff_lt_mul whole_pos).mpr hbelow)
  rw [face, value_ofFraction (fractionOf_lt hhigh), hfloor, hquot]
  omega

/-! ### The faces of a die -/

/-- The faces as buckets of samples, whatever the number of sides. The product of a sample is the
exact one, rounded to the nearest sample. A greater sample selects no smaller face, and if its
product is below `2 ^ 63`, there is room for the integers that the faces are taken from. Samples from
zero to below one select a face without being brought into the range of the die, the face of the
exact product, or the next one if the rounded product is an integer above the exact one. Every face
is selected by a sample `k / 2 ^ 53` below one, the last face by the greatest of them. -/
theorem face_buckets (sides : Quantity) :
    (∀ (x : Sample) (q : ℚ), x.value.number? = some q →
      Rounded (q * sides.toNat) (x.value.times sides)) ∧
    (∀ x y : Sample, x.value.Le y.value → (y.value.times sides).Below63 →
      Word.Fits ((x.value.times sides).floor + 1) ∧ Word.Fits ((y.value.times sides).floor + 1) ∧
        x.face sides ≤ y.face sides) ∧
    (∀ (x : Sample) (q : ℚ), x.value.number? = some q → 0 ≤ q → q < 1 →
      Bucket sides (q * sides.toNat) (x.value.times sides) ∧
        x.face sides = (x.value.times sides).floor + 1) ∧
    (∀ f : Nat, 1 ≤ f → f ≤ sides.toNat → ∃ k < 2 ^ 53,
      (ofFraction k).value.number? = some ((k : ℚ) / 2 ^ 53) ∧ (ofFraction k).face sides = f) ∧
    (ofFraction (2 ^ 53 - 1)).value.number? = some ((2 ^ 53 - 1) / 2 ^ 53) ∧
    (ofFraction (2 ^ 53 - 1)).face sides = sides.toNat := by
  refine ⟨fun x q hq => rounded_times hq sides, fun x y h hy => ?_, fun x q hq h0 h1 => ?_,
    fun f hlow hhigh => ?_, ?_, face_belowOne sides⟩
  · exact ⟨Value.fits_floor_add_one ((Value.times_mono h sides).below63 hy),
      Value.fits_floor_add_one hy, face_le_face h sides⟩
  · have hbucket := bucket_of_unit hq h0 h1 sides
    exact ⟨hbucket, hbucket.face_eq⟩
  · have hlt := fractionOf_lt hhigh
    exact ⟨fractionOf sides f, hlt, Value.number?_ofFraction hlt, face_fractionOf hlow hhigh⟩
  · rw [Value.number?_ofFraction (by decide)]
    norm_num

/-- The number of sides of a die of seven sides. -/
def sevenSides : Quantity := ⟨7, by decide, by decide⟩

/-- The greatest sample `k / 2 ^ 53` below two sevenths. -/
def twoSevenths : Sample := ofFraction 0x9249249249249

/-- The exact product of `twoSevenths` and seven is below two, and rounded up to it. -/
theorem face_buckets_twoSevenths :
    Rounded (0x9249249249249 / 2 ^ 53 * sevenSides.toNat) (twoSevenths.value.times sevenSides) ∧
      twoSevenths.face sevenSides ≤ belowOne.face sevenSides ∧
      Bucket sevenSides (0x9249249249249 / 2 ^ 53 * sevenSides.toNat)
        (twoSevenths.value.times sevenSides) ∧
      ⌊(0x9249249249249 / 2 ^ 53 * sevenSides.toNat : ℚ)⌋ = 1 ∧ twoSevenths.face sevenSides = 3 ∧
      ∃ k < 2 ^ 53, (ofFraction k).face sevenSides = 2 := by
  have hnumber : twoSevenths.value.number? = some (0x9249249249249 / 2 ^ 53) := by
    exact_mod_cast Value.number?_ofFraction (k := 0x9249249249249) (by decide)
  have hbelowOne : belowOne.value.number? = some (((2 ^ 53 - 1 : Nat) : ℚ) / 2 ^ 53) :=
    Value.number?_ofFraction (by decide)
  have hle : twoSevenths.value.Le belowOne.value :=
    (Value.le_iff_of_number? hnumber hbelowOne).mpr (by norm_num)
  obtain ⟨hrounded, hmono, hunit, hall, -⟩ := face_buckets sevenSides
  obtain ⟨-, -, hfaces⟩ := hmono twoSevenths belowOne hle (by
    rw [Value.below63_times_iff hbelowOne]
    norm_num [sevenSides])
  obtain ⟨hbucket, -⟩ := hunit twoSevenths _ hnumber (by norm_num) (by norm_num)
  obtain ⟨k, hk, -, hface⟩ := hall 2 (by decide) (by decide)
  exact ⟨hrounded twoSevenths _ hnumber, hfaces, hbucket, by norm_num [sevenSides],
    by decide +kernel, k, hk, hface⟩

end DiceSum.Sample
