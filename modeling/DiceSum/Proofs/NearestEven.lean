import DiceSum.Proofs.EndFaces
import DiceSum.Proofs.FaceChoice

/-!
# Rounding to the nearest number

A product is rounded by a division with remainder. What it comes to is said without one: of all
numbers of the format, the rounded product is the nearest to the exact one, of two equally near ones
that whose last bit is zero, and from `2 ^ 1024 - 2 ^ 970` on, half-way between the greatest number
and the power of two above it, it is infinite.

## Main definitions

* `DiceSum.Sample.ofParts` — the sample of a sign, an amount to move by and a significand.
* `DiceSum.Sample.rounded` — the nearest integer of 53 significant bits, of either sign.
* `DiceSum.Sample.Value.number?` — the rational number that a finite value is.
* `DiceSum.Sample.Nearest`, `DiceSum.Sample.Rounded` — the rule.

## Main results

* `DiceSum.Sample.dist_halveEven`, `DiceSum.Sample.halveEven_lt_iff` — the rule for integers.
* `DiceSum.Sample.dist_nearest`, `DiceSum.Sample.nearest_lt_two_pow_iff`,
  `DiceSum.Sample.nearest_mono` — the rule for integers of 53 significant bits, and that it keeps
  the order.
* `DiceSum.Sample.exists_value_eq` — such an integer below the limit is the value of a sample.
* `DiceSum.Sample.rounded_times` — the product of a sample and a number of sides obeys the rule.
-/

namespace DiceSum.Sample

/-! ### The nearest integer -/

/-- The quotient is rounded up only if the remainder is at least one half, and down only if it is at
most one half. -/
theorem halveEven_cases (n s : Nat) :
    (halveEven n s = n / 2 ^ s ∧ 2 * (n % 2 ^ s) ≤ 2 ^ s) ∨
      (halveEven n s = n / 2 ^ s + 1 ∧ 2 ^ s ≤ 2 * (n % 2 ^ s)) := by
  simp only [halveEven, Nat.shiftRight_eq_div_pow, Nat.one_shiftLeft]
  split
  · exact .inl ⟨rfl, by omega⟩
  · split
    · exact .inl ⟨rfl, by omega⟩
    · exact .inr ⟨rfl, by omega⟩

/-- Of two integers that are equally near the even one is taken. -/
theorem halveEven_even {n s : Nat} (h : 2 * (n % 2 ^ s) = 2 ^ s) : halveEven n s % 2 = 0 := by
  simp only [halveEven, Nat.shiftRight_eq_div_pow, Nat.one_shiftLeft]
  rw [if_neg (by omega)]
  split <;> omega

/-- The multiples of `d`, seen from the multiple number `q`. -/
private theorem mul_cases (a q d : Nat) :
    a * d + d ≤ q * d ∨ a = q ∨ a = q + 1 ∨ q * d + 2 * d ≤ a * d := by
  rcases Nat.lt_or_ge a q with h | h
  · have hle := Nat.mul_le_mul_right d h
    rw [Nat.succ_mul] at hle
    exact .inl hle
  · rcases Nat.lt_or_ge (q + 1) a with h' | h'
    · have hle := Nat.mul_le_mul_right d h'
      rw [Nat.succ_mul, Nat.succ_mul] at hle
      exact .inr (.inr (.inr (by omega)))
    · omega

/-- No multiple of `2 ^ s` is nearer than the rounded one, and none as near if the rounded one is
odd. -/
theorem dist_halveEven (n s a : Nat) :
    Nat.dist n (halveEven n s * 2 ^ s) ≤ Nat.dist n (a * 2 ^ s) ∧
      (Nat.dist n (halveEven n s * 2 ^ s) = Nat.dist n (a * 2 ^ s) →
        a = halveEven n s ∨ halveEven n s % 2 = 0) := by
  have hn := Nat.div_add_mod' n (2 ^ s)
  have hlt := Nat.mod_lt n (Nat.two_pow_pos s)
  have hcases := mul_cases a (n / 2 ^ s) (2 ^ s)
  have hsucc : (n / 2 ^ s + 1) * 2 ^ s = n / 2 ^ s * 2 ^ s + 2 ^ s := Nat.succ_mul _ _
  have heven := @halveEven_even n s
  simp only [Nat.dist]
  rcases halveEven_cases n s with ⟨h, hr⟩ | ⟨h, hr⟩
  · rw [h] at heven ⊢
    generalize n / 2 ^ s = q at *
    rcases hcases with ha | rfl | rfl | ha <;> omega
  · rw [h] at heven ⊢
    generalize n / 2 ^ s = q at *
    rcases hcases with ha | rfl | rfl | ha <;> omega

/-- From half-way on between an even integer and the one below it a number is rounded up to the
even one. -/
theorem halveEven_lt_iff (n s : Nat) {a : Nat} (ha : a % 2 = 0) :
    halveEven n s < a ↔ 2 * n + 2 ^ s < 2 * (a * 2 ^ s) := by
  have hn := Nat.div_add_mod' n (2 ^ s)
  have hlt := Nat.mod_lt n (Nat.two_pow_pos s)
  have heven := @halveEven_even n s
  have hcases := halveEven_cases n s
  generalize n / 2 ^ s = q at *
  rcases Nat.lt_trichotomy a (q + 1) with h | rfl | h
  · have hmul : a * 2 ^ s ≤ q * 2 ^ s := Nat.mul_le_mul_right _ (Nat.le_of_lt_succ h)
    omega
  · have hsucc : (q + 1) * 2 ^ s = q * 2 ^ s + 2 ^ s := Nat.succ_mul _ _
    omega
  · have hmul : (q + 1) * 2 ^ s + 2 ^ s ≤ a * 2 ^ s := by
      rw [← Nat.succ_mul]
      exact Nat.mul_le_mul_right _ h
    have hsucc : (q + 1) * 2 ^ s = q * 2 ^ s + 2 ^ s := Nat.succ_mul _ _
    omega

/-! ### The nearest number of 53 significant bits -/

theorem nearest_eq (n : Nat) : nearest n = halveEven n (n.log2 - 52) * 2 ^ (n.log2 - 52) :=
  Nat.shiftLeft_eq _ _

theorem two_pow_le_of_log2 {n : Nat} (h : 52 < n.log2) : 2 ^ 52 * 2 ^ (n.log2 - 52) ≤ n := by
  rw [← Nat.pow_add, Nat.add_sub_cancel' (by omega)]
  exact Nat.log2_self_le (by rintro rfl; simp at h)

/-- A number of 53 bits is a multiple of the last bit of `n`, or it is separated from `n` by a
multiple. -/
theorem exists_mul_two_pow_or_lt {m : Nat} (hm : m < 2 ^ 53) (n t : Nat) :
    (∃ a, m * 2 ^ t = a * 2 ^ (n.log2 - 52)) ∨
      (m * 2 ^ t < 2 ^ 52 * 2 ^ (n.log2 - 52) ∧ 2 ^ 52 * 2 ^ (n.log2 - 52) ≤ n) := by
  rcases Nat.lt_or_ge t (n.log2 - 52) with ht | ht
  · refine .inr ⟨?_, two_pow_le_of_log2 (by omega)⟩
    calc m * 2 ^ t < 2 ^ 53 * 2 ^ t := Nat.mul_lt_mul_of_pos_right hm (Nat.two_pow_pos t)
      _ = 2 ^ 52 * 2 ^ (t + 1) := by rw [Nat.pow_succ 2 t]; omega
      _ ≤ 2 ^ 52 * 2 ^ (n.log2 - 52) :=
          Nat.mul_le_mul_left _ (Nat.pow_le_pow_right (by decide) ht)
  · refine .inl ⟨m * 2 ^ (t - (n.log2 - 52)), ?_⟩
    rw [Nat.mul_assoc, ← Nat.pow_add, Nat.sub_add_cancel ht]

/-- No number of 53 bits is nearer than the rounded one, and none as near if the last bit of the
rounded one is set. -/
theorem dist_nearest {m : Nat} (hm : m < 2 ^ 53) (n t : Nat) :
    Nat.dist n (nearest n) ≤ Nat.dist n (m * 2 ^ t) ∧
      (Nat.dist n (nearest n) = Nat.dist n (m * 2 ^ t) →
        m * 2 ^ t = nearest n ∨ halveEven n (n.log2 - 52) % 2 = 0) := by
  rw [nearest_eq]
  rcases exists_mul_two_pow_or_lt hm n t with ⟨a, ha⟩ | ⟨hlt, hle⟩
  · rw [ha]
    have hdist := dist_halveEven n (n.log2 - 52) a
    exact ⟨hdist.1, fun h => (hdist.2 h).imp (congrArg (· * _)) id⟩
  · -- the multiple in between is nearer
    have hdist := (dist_halveEven n (n.log2 - 52) (2 ^ 52)).1
    simp only [Nat.dist] at hdist ⊢
    omega

/-! ### Order -/

theorem halveEven_mono {n n' : Nat} (h : n ≤ n') (s : Nat) : halveEven n s ≤ halveEven n' s := by
  have hquot : n / 2 ^ s ≤ n' / 2 ^ s := Nat.div_le_div_right h
  rcases halveEven_cases n s with ⟨hn, hr⟩ | ⟨hn, hr⟩
  · exact hn.trans_le (hquot.trans (div_le_halveEven n' s))
  · rcases halveEven_cases n' s with ⟨hn', hr'⟩ | ⟨hn', hr'⟩
    · rw [hn, hn']
      refine Nat.lt_of_le_of_ne hquot fun heq => ?_
      -- with one quotient both remainders are one half
      have hsplit := Nat.div_add_mod' n (2 ^ s)
      have hsplit' := Nat.div_add_mod' n' (2 ^ s)
      rw [← heq] at hsplit' hn'
      have hsame : n = n' := by omega
      subst hsame
      omega
    · omega

theorem halveEven_mul_two_pow (a s : Nat) : halveEven (a * 2 ^ s) s = a := by
  have hpow := Nat.two_pow_pos s
  simp only [halveEven, Nat.shiftRight_eq_div_pow, Nat.one_shiftLeft, Nat.mul_mod_left,
    Nat.mul_div_cancel a hpow]
  rw [if_pos (by omega)]

/-- A number stays below a multiple of its last bit when it is rounded. -/
theorem nearest_le_mul_two_pow {a t n : Nat} (ht : n.log2 - 52 ≤ t) (h : n ≤ a * 2 ^ t) :
    nearest n ≤ a * 2 ^ t := by
  have hpow : a * 2 ^ t = a * 2 ^ (t - (n.log2 - 52)) * 2 ^ (n.log2 - 52) := by
    rw [Nat.mul_assoc, ← Nat.pow_add, Nat.sub_add_cancel ht]
  rw [hpow] at h ⊢
  rw [nearest_eq]
  refine Nat.mul_le_mul_right _ ?_
  calc halveEven n (n.log2 - 52) ≤ halveEven _ (n.log2 - 52) := halveEven_mono h _
    _ = a * 2 ^ (t - (n.log2 - 52)) := halveEven_mul_two_pow _ _

theorem le_two_pow_of_log2 (n : Nat) : n ≤ 2 ^ 53 * 2 ^ (n.log2 - 52) := by
  calc n ≤ 2 ^ (n.log2 + 1) := Nat.lt_log2_self.le
    _ ≤ 2 ^ (53 + (n.log2 - 52)) := Nat.pow_le_pow_right (by decide) (by omega)
    _ = 2 ^ 53 * 2 ^ (n.log2 - 52) := Nat.pow_add 2 53 _

/-- Rounding keeps the order. -/
theorem nearest_mono {n n' : Nat} (h : n ≤ n') : nearest n ≤ nearest n' := by
  have hlog : n.log2 ≤ n'.log2 := by
    rw [Nat.log2_eq_log_two, Nat.log2_eq_log_two]
    exact Nat.log_mono_right h
  rcases Nat.lt_or_ge (n.log2 - 52) (n'.log2 - 52) with hs | hs
  · -- a power of two lies in between
    calc nearest n ≤ 2 ^ 53 * 2 ^ (n.log2 - 52) :=
          nearest_le_mul_two_pow (le_refl _) (le_two_pow_of_log2 n)
      _ = 2 ^ 52 * 2 ^ (n.log2 - 52 + 1) := by rw [Nat.pow_succ 2 (n.log2 - 52)]; omega
      _ ≤ 2 ^ 52 * 2 ^ (n'.log2 - 52) :=
          Nat.mul_le_mul_left _ (Nat.pow_le_pow_right (by decide) hs)
      _ ≤ nearest n' := mul_two_pow_le_nearest (le_refl _) (two_pow_le_of_log2 (by omega))
  · have heq : n'.log2 - 52 = n.log2 - 52 := by omega
    rw [nearest_eq, nearest_eq, heq]
    exact Nat.mul_le_mul_right _ (halveEven_mono h _)

/-! ### The greatest numbers below a power of two -/

theorem two_pow_log2_le_nearest {n : Nat} (h : n ≠ 0) : 2 ^ n.log2 ≤ nearest n := by
  have hle := mul_two_pow_le_nearest (a := 1) (t := n.log2) (n := n) (by omega)
    (by rw [Nat.one_mul]; exact Nat.log2_self_le h)
  rwa [Nat.one_mul] at hle

/-- A number is rounded up to `2 ^ (t + 54)`, or further, from half-way on between that power and the
greatest number of 53 significant bits below it. -/
theorem nearest_lt_two_pow_iff (n t : Nat) :
    nearest n < 2 ^ 54 * 2 ^ t ↔ n + 2 ^ t < 2 ^ 54 * 2 ^ t := by
  have hpos := Nat.two_pow_pos t
  have hsucc : 2 ^ (t + 1) = 2 * 2 ^ t := Nat.pow_succ'
  have hlog {k : Nat} (hk : n ≠ 0) : n.log2 < k + t ↔ n < 2 ^ k * 2 ^ t := by
    rw [Nat.log2_lt hk, Nat.pow_add]
  rcases Nat.lt_or_ge n (2 ^ 53 * 2 ^ t) with hlt | hge
  · -- not near the power
    have hle : nearest n ≤ 2 ^ 53 * 2 ^ t := by
      refine nearest_le_mul_two_pow ?_ hlt.le
      by_cases hn : n = 0
      · subst hn
        simp
      · have := (hlog hn).mpr hlt
        omega
    omega
  have hn : n ≠ 0 := by omega
  have hlow : 53 + t ≤ n.log2 := Nat.le_of_not_lt fun h => by have := (hlog hn).mp h; omega
  rcases Nat.lt_or_ge n (2 ^ 54 * 2 ^ t) with hlt | hge'
  · -- one bit below the power, so that the last bit of `n` is `2 ^ (t + 1)`
    have hhigh := (hlog hn).mpr hlt
    have hs : n.log2 - 52 = t + 1 := by omega
    have hcarry := halveEven_lt_iff n (t + 1) (a := 2 ^ 53) (by decide)
    rw [nearest_eq, hs, show 2 ^ 54 * 2 ^ t = 2 ^ 53 * 2 ^ (t + 1) by omega,
      Nat.mul_lt_mul_right (Nat.two_pow_pos _), hcarry]
    omega
  · -- the power itself, or further
    have hpow : 2 ^ 54 * 2 ^ t ≤ 2 ^ n.log2 := by
      rw [← Nat.pow_add]
      refine Nat.pow_le_pow_right (by decide) ?_
      exact Nat.le_of_not_lt fun h => by have := (hlog hn).mp h; omega
    have hle := two_pow_log2_le_nearest hn
    omega

/-! ### The numbers of the format -/

/-- A magnitude has at most 53 significant bits. -/
theorem exists_magnitude_eq (x : Sample) : ∃ m t, m < 2 ^ 53 ∧ x.magnitude = m * 2 ^ t := by
  have hfrac : x.fraction < 2 ^ 52 := Nat.mod_lt _ (by decide)
  rw [magnitude]
  split
  · exact ⟨x.fraction, 0, by omega, (Nat.mul_one _).symm⟩
  · exact ⟨0x10000000000000 + x.fraction, x.exponent - 1, by omega, Nat.shiftLeft_eq _ _⟩

/-- The bits of zero with a sign put on. -/
def signBit : Sign → Nat
  | .plus => 0
  | .minus => 2 ^ 63

/-- The sample of magnitude `m * 2 ^ e` with a sign put on, for a significand `m` of 53 bits. Its
leading bit is carried into the exponent field; if there is none, `e` is zero. -/
def ofParts (s : Sign) (e m : Nat) : Sample := ⟨UInt64.ofNat (signBit s + e * 2 ^ 52 + m)⟩

theorem value_ofParts (s : Sign) {e m : Nat} (hm : m < 2 ^ 53) (hlead : e = 0 ∨ 2 ^ 52 ≤ m)
    (he : e < 2046) :
    (ofParts s e m).value = .finite (s.apply (m * 2 ^ e : Nat)) ∧
      (ofParts s e m).fraction % 2 = m % 2 := by
  have hhigh : signBit s = 0 ∨ signBit s = 2 ^ 63 := by cases s <;> simp [signBit]
  have hbits : (ofParts s e m).bits.toNat = signBit s + e * 2 ^ 52 + m := by
    show UInt64.toNat (UInt64.ofNat _) = _
    rw [UInt64.toNat_ofNat']
    omega
  have hsign : (ofParts s e m).sign = s := by
    rw [sign, hbits]
    cases s with
    | plus => rw [signBit, if_pos (by omega)]
    | minus => rw [signBit, if_neg (by omega)]
  have hfrac : (ofParts s e m).fraction = m % 2 ^ 52 := by
    rw [fraction, hbits]
    omega
  have hexp : (ofParts s e m).exponent = e + m / 2 ^ 52 := by
    rw [exponent, hbits, Nat.shiftRight_eq_div_pow]
    omega
  have hmag : (ofParts s e m).magnitude = m * 2 ^ e := by
    rw [magnitude, hexp, hfrac]
    rcases Nat.lt_or_ge m (2 ^ 52) with h | h
    · obtain rfl : e = 0 := by omega
      rw [if_pos (by omega), Nat.mod_eq_of_lt h, Nat.pow_zero, Nat.mul_one]
    · rw [if_neg (by omega), Nat.shiftLeft_eq]
      congr 2 <;> omega
  refine ⟨?_, by omega⟩
  rw [value, hexp, if_neg (by omega), hsign, hmag]

theorem exists_limit_eq : ∃ k, Value.limit = 2 ^ k ∧ k = 2098 := by
  have hpow (k : Nat) : 1 <<< k = 2 ^ k := Nat.one_shiftLeft k
  exact ⟨2098, Value.limit.eq_1.trans (hpow 2098), rfl⟩

theorem lt_of_mul_two_pow_lt_limit {m e k : Nat} (hm : 2 ^ k ≤ m) (h : m * 2 ^ e < Value.limit) :
    k + e < 2098 := by
  obtain ⟨j, hlimit, hj⟩ := exists_limit_eq
  rw [← hj]
  refine (Nat.pow_lt_pow_iff_right (show 1 < 2 by decide)).mp ?_
  rw [Nat.pow_add, ← hlimit]
  exact (Nat.mul_le_mul_right _ hm).trans_lt h

/-- A significand that has been carried to `2 ^ 53` is brought back to 53 bits. -/
theorem exists_parts_eq {m e : Nat} (hm : m ≤ 2 ^ 53) (hlead : e = 0 ∨ 2 ^ 52 ≤ m)
    (h : m * 2 ^ e < Value.limit) :
    ∃ m' e', m' < 2 ^ 53 ∧ (e' = 0 ∨ 2 ^ 52 ≤ m') ∧ e' < 2046 ∧ m' * 2 ^ e' = m * 2 ^ e ∧
      (m % 2 = 0 → m' % 2 = 0) := by
  rcases Nat.lt_or_eq_of_le hm with hlt | rfl
  · have he : e < 2046 := by
      rcases hlead with rfl | hlead
      · decide
      · have := lt_of_mul_two_pow_lt_limit hlead h
        omega
    exact ⟨m, e, hlt, hlead, he, rfl, id⟩
  · have he : 53 + e < 2098 := lt_of_mul_two_pow_lt_limit (le_refl _) h
    refine ⟨2 ^ 52, e + 1, by decide, by omega, by omega, ?_, by omega⟩
    rw [Nat.pow_succ 2 e]
    omega

/-- A rounded number below the limit is the magnitude of a sample, of both signs. Its last bit is
zero if the number was rounded to an even one. -/
theorem exists_value_eq (s : Sign) {n : Nat} (h : nearest n < Value.limit) :
    ∃ x : Sample, x.value = .finite (s.apply (nearest n)) ∧
      (halveEven n (n.log2 - 52) % 2 = 0 → x.fraction % 2 = 0) := by
  have hpow := Nat.two_pow_pos (n.log2 - 52)
  rw [nearest_eq] at h
  have hhigh : halveEven n (n.log2 - 52) ≤ 2 ^ 53 :=
    Nat.le_of_mul_le_mul_right (nearest_eq n ▸ nearest_le_mul_two_pow (le_refl _)
      (le_two_pow_of_log2 n)) hpow
  have hlead : n.log2 - 52 = 0 ∨ 2 ^ 52 ≤ halveEven n (n.log2 - 52) := by
    refine or_iff_not_imp_left.mpr fun hne => ?_
    exact Nat.le_of_mul_le_mul_right (nearest_eq n ▸ mul_two_pow_le_nearest (le_refl _)
      (two_pow_le_of_log2 (by omega))) hpow
  obtain ⟨m, e, hm, hlead', he, heq, heven⟩ := exists_parts_eq hhigh hlead h
  obtain ⟨hvalue, hfrac⟩ := value_ofParts s hm hlead' he
  refine ⟨ofParts s e m, ?_, fun h => hfrac.trans (heven h)⟩
  rw [hvalue, heq, nearest_eq]

/-! ### The nearest number of either sign -/

/-- The integer of at most 53 significant bits that is nearest to `units`. -/
def rounded (units : Int) : Int :=
  if units < 0 then -nearest units.natAbs else nearest units.natAbs

theorem natAbs_rounded (units : Int) : (rounded units).natAbs = nearest units.natAbs := by
  rw [rounded]
  split <;> omega

theorem apply_nearest (units : Int) :
    (if units < 0 then Sign.minus else .plus).apply (nearest units.natAbs) = rounded units := by
  rw [rounded]
  split
  · exact Sign.apply_minus _
  · exact Sign.apply_plus _

theorem round_eq_rounded (units : Int) :
    Value.round units = if (rounded units).natAbs < Value.limit then .finite (rounded units)
      else .infinite (if units < 0 then .minus else .plus) := by
  rw [natAbs_rounded, ← apply_nearest, Value.round]

theorem rounded_mono {units units' : Int} (h : units ≤ units') :
    rounded units ≤ rounded units' := by
  rw [rounded, rounded]
  split
  · split
    · have := nearest_mono (show units'.natAbs ≤ units.natAbs by omega)
      omega
    · omega
  · have := nearest_mono (show units.natAbs ≤ units'.natAbs by omega)
    rw [if_neg (by omega)]
    omega

/-- No magnitude of 53 bits, with a sign put on, is nearer to an integer than the rounded one, and
none as near if the last bit of the rounded one is set. -/
theorem natAbs_sub_rounded {units units' : Int} {m t : Nat} (hm : m < 2 ^ 53)
    (h : units'.natAbs = m * 2 ^ t) :
    (units - rounded units).natAbs ≤ (units - units').natAbs ∧
      ((units - rounded units).natAbs = (units - units').natAbs →
        units' = rounded units ∨ halveEven units.natAbs (units.natAbs.log2 - 52) % 2 = 0) := by
  have hdist := dist_nearest hm units.natAbs t
  -- zero is a number of the format, and lies between numbers of different signs
  have hzero := (dist_nearest (Nat.two_pow_pos 53) units.natAbs 0).1
  rw [← h] at hdist
  simp only [Nat.dist, Nat.zero_mul] at hdist hzero
  rw [rounded]
  constructor
  · split <;> omega
  · split <;> omega

/-! ### The rule -/

/-- The rational number that a finite value is. -/
def Value.number? : Value → Option ℚ
  | finite units => some (units / 2 ^ 1074)
  | _ => none

theorem Value.number?_eq_some {v : Value} {q : ℚ} :
    v.number? = some q ↔ ∃ units : Int, v = finite units ∧ units / 2 ^ 1074 = q := by
  cases v <;> simp [number?]

/-- The sample `x`, of value `p`, is the nearest one to `q`: no sample is nearer, and none as near if
the last bit of `x` is set. -/
structure Nearest (q : ℚ) (x : Sample) (p : ℚ) : Prop where
  number : x.value.number? = some p
  le : ∀ (z : Sample) (r : ℚ), z.value.number? = some r → |q - p| ≤ |q - r|
  even : ∀ (z : Sample) (r : ℚ), z.value.number? = some r → |q - p| = |q - r| →
    r = p ∨ x.fraction % 2 = 0

/-- The value that a rational number is rounded to: the nearest sample, or an infinity from half-way
on between the greatest finite sample and `2 ^ 1024`. -/
inductive Rounded (q : ℚ) : Value → Prop
  | nearest {v : Value} {x : Sample} {p : ℚ} (hv : v.number? = some p) (hx : Nearest q x p)
      (h : |q| < 2 ^ 1024 - 2 ^ 970) : Rounded q v
  | above (h : 2 ^ 1024 - 2 ^ 970 ≤ q) : Rounded q (.infinite .plus)
  | below (h : q ≤ -(2 ^ 1024 - 2 ^ 970)) : Rounded q (.infinite .minus)

theorem two_pow_1074_pos : (0 : ℚ) < 2 ^ 1074 := by positivity

theorem abs_div_sub_div (units units' : Int) :
    |(units / 2 ^ 1074 - units' / 2 ^ 1074 : ℚ)| = (units - units').natAbs / 2 ^ 1074 := by
  rw [← sub_div, abs_div, abs_of_pos two_pow_1074_pos, Nat.cast_natAbs, Int.cast_abs, Int.cast_sub]

/-- The magnitude of a sample that is a number has at most 53 significant bits. -/
theorem exists_natAbs_eq {x : Sample} {units : Int} (h : x.value = .finite units) :
    ∃ m t, m < 2 ^ 53 ∧ units.natAbs = m * 2 ^ t := by
  have hunits : units = x.sign.apply x.magnitude := by
    rw [value] at h
    split at h
    · split at h <;> cases h
    · exact (Value.finite.inj h).symm
  obtain ⟨m, t, hm, hx⟩ := exists_magnitude_eq x
  exact ⟨m, t, hm, by rw [hunits, Sign.natAbs_apply, Int.natAbs_natCast, hx]⟩

theorem exists_nearest {units : Int} (h : (rounded units).natAbs < Value.limit) :
    ∃ x, Nearest (units / 2 ^ 1074) x (rounded units / 2 ^ 1074) := by
  rw [natAbs_rounded] at h
  obtain ⟨x, hx, heven⟩ := exists_value_eq (if units < 0 then .minus else .plus) h
  rw [apply_nearest] at hx
  refine ⟨x, Value.number?_eq_some.mpr ⟨_, hx, rfl⟩, fun z r hz => ?_, fun z r hz heq => ?_⟩
  · obtain ⟨units', hunits', rfl⟩ := Value.number?_eq_some.mp hz
    obtain ⟨m, t, hm, hmag⟩ := exists_natAbs_eq hunits'
    rw [abs_div_sub_div, abs_div_sub_div]
    gcongr
    exact (natAbs_sub_rounded hm hmag).1
  · obtain ⟨units', hunits', rfl⟩ := Value.number?_eq_some.mp hz
    obtain ⟨m, t, hm, hmag⟩ := exists_natAbs_eq hunits'
    rw [abs_div_sub_div, abs_div_sub_div, div_left_inj' two_pow_1074_pos.ne', Nat.cast_inj] at heq
    exact ((natAbs_sub_rounded hm hmag).2 heq).imp (congrArg fun i : Int => (i : ℚ) / _) heven

/-- A number of units is rounded to a finite one below half-way between the greatest of them and
`2 ^ 1024`. -/
theorem rounded_lt_limit_iff (units : Int) :
    (rounded units).natAbs < Value.limit ↔ |(units / 2 ^ 1074 : ℚ)| < 2 ^ 1024 - 2 ^ 970 := by
  obtain ⟨k, hlimit, hk⟩ : ∃ k, Value.limit = 2 ^ 54 * 2 ^ k ∧ k = 970 + 1074 := by
    obtain ⟨j, hlimit, hj⟩ := exists_limit_eq
    exact ⟨970 + 1074, by rw [hlimit, hj, ← Nat.pow_add], rfl⟩
  have hpow : (2 : ℚ) ^ 1024 = 2 ^ 54 * 2 ^ 970 := pow_add 2 54 970
  have habs : |(units : ℚ)| = (units.natAbs : ℚ) := by rw [Nat.cast_natAbs, Int.cast_abs]
  have hcast : units.natAbs + 2 ^ k < 2 ^ 54 * 2 ^ k ↔
      (units.natAbs : ℚ) + 2 ^ k < 2 ^ 54 * 2 ^ k := by exact_mod_cast Iff.rfl
  rw [natAbs_rounded, hlimit, nearest_lt_two_pow_iff, hcast, abs_div, abs_of_pos two_pow_1074_pos,
    div_lt_iff₀ two_pow_1074_pos, habs, hpow, hk, pow_add, sub_mul, lt_sub_iff_add_lt, mul_assoc]

theorem rounded_round (units : Int) : Rounded (units / 2 ^ 1074) (Value.round units) := by
  rw [round_eq_rounded]
  split
  case isTrue h =>
    obtain ⟨x, hx⟩ := exists_nearest h
    exact .nearest rfl hx ((rounded_lt_limit_iff units).mp h)
  case isFalse h =>
    rw [rounded_lt_limit_iff, not_lt] at h
    split
    case isTrue hneg =>
      have hexact : (units / 2 ^ 1074 : ℚ) < 0 :=
        div_neg_of_neg_of_pos (by exact_mod_cast hneg) two_pow_1074_pos
      rw [abs_of_neg hexact] at h
      exact .below (le_neg.mp h)
    case isFalse hneg =>
      have hexact : (0 : ℚ) ≤ units / 2 ^ 1074 :=
        div_nonneg (by exact_mod_cast Int.not_lt.mp hneg) two_pow_1074_pos.le
      rw [abs_of_nonneg hexact] at h
      exact .above h

/-- The product of a number and a number of sides is the exact product, rounded. -/
theorem rounded_times {v : Value} {q : ℚ} (hq : v.number? = some q) (sides : Quantity) :
    Rounded (q * sides.toNat) (v.times sides) := by
  obtain ⟨units, rfl, rfl⟩ := Value.number?_eq_some.mp hq
  have hmul : (units / 2 ^ 1074 * sides.toNat : ℚ) = (units * sides.toNat : Int) / 2 ^ 1074 := by
    rw [div_mul_eq_mul_div, Int.cast_mul, Int.cast_natCast]
  rw [hmul, Value.times]
  exact rounded_round _

end DiceSum.Sample
