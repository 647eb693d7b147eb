import DiceSum.Sign

/-!
# Samples

A sample is a binary floating-point number of 64 bits: a sign, 11 bits of exponent and 52 bits of
fraction. It is kept as its bits, which is how a log shows it, and computed with as its exact value:
every finite number of the format is an integer multiple of the least positive one, `2 ^ (-1074)`,
so that its value is that integer.

## Main definitions

* `DiceSum.Sample` — the bits, with `sign`, `exponent` and `fraction` as their parts.
* `DiceSum.Sample.Value`, `DiceSum.Sample.value` — what the bits stand for.
* `DiceSum.Sample.ofFraction` — the sample of value `k / 2 ^ 53`.

## Main results

* `DiceSum.Sample.value_ofFraction` — the value of that sample is exact.
-/

namespace DiceSum

/-- A binary floating-point number of 64 bits. -/
structure Sample where
  bits : UInt64
  deriving DecidableEq, Repr

namespace Sample

/-- What the bits of a sample stand for. -/
inductive Value where
  /-- Not a number. -/
  | nan
  | infinite (s : Sign)
  /-- The number `units * 2 ^ (-1074)`. -/
  | finite (units : Int)
  deriving DecidableEq, Repr

/-- The highest bit of a sample, as a sign. -/
def sign (x : Sample) : Sign := if x.bits.toNat < 0x8000000000000000 then .plus else .minus

/-- The exponent field of a sample, the 11 bits after the highest one. -/
def exponent (x : Sample) : Nat := (x.bits.toNat >>> 52) % 0x800

/-- The fraction field of a sample, the lowest 52 bits. -/
def fraction (x : Sample) : Nat := x.bits.toNat % 0x10000000000000

/-- The magnitude of a finite sample as a multiple of `2 ^ (-1074)`. With an exponent field of zero
it is the fraction itself; otherwise the fraction is completed by a leading bit and moved. -/
def magnitude (x : Sample) : Nat :=
  if x.exponent = 0 then x.fraction else (0x10000000000000 + x.fraction) <<< (x.exponent - 1)

/-- What a sample stands for. -/
def value (x : Sample) : Value :=
  if x.exponent = 2047 then
    if x.fraction = 0 then .infinite x.sign else .nan
  else .finite (x.sign.apply x.magnitude)

/-- Whether a sample is not a number. -/
def isNan (x : Sample) : Bool := x.value == .nan

/-! ### Fractions of one -/

/-- The number of units of `2 ^ (-1074)` in `2 ^ (-53)`. -/
def grain : Nat := 1 <<< 1021

/-- The sample of value `k / 2 ^ 53`, for `k` below `2 ^ 53`. The leading bit of `k` is carried
into the exponent field. -/
def ofFraction (k : Nat) : Sample :=
  ⟨UInt64.ofNat (if k = 0 then 0 else ((k.log2 + 969) <<< 52) + (k <<< (52 - k.log2)))⟩

private theorem shiftLeft_eq_mul_grain {k m : Nat} (h : m = 1021) : k <<< m = k * grain := by
  rw [h, grain, Nat.shiftLeft_eq, Nat.one_shiftLeft]

private theorem log2_le_of_lt {k : Nat} (hk : k ≠ 0) (h : k < 0x20000000000000) :
    k.log2 ≤ 52 := by
  have := (Nat.log2_lt hk).mpr (show k < 2 ^ 53 by omega)
  omega

/-- A positive number below `2 ^ 53`, moved so that its leading bit is bit 52. -/
private theorem exists_shifted {k : Nat} (hk : k ≠ 0) (h : k < 0x20000000000000) :
    ∃ f, f < 0x10000000000000 ∧ k <<< (52 - k.log2) = 0x10000000000000 + f := by
  have hl := log2_le_of_lt hk h
  have hlow : 2 ^ k.log2 ≤ k := Nat.log2_self_le hk
  have hhigh : k < 2 ^ (k.log2 + 1) := Nat.lt_log2_self
  have h1 : 2 ^ k.log2 * 2 ^ (52 - k.log2) ≤ k * 2 ^ (52 - k.log2) := Nat.mul_le_mul_right _ hlow
  have h2 : k * 2 ^ (52 - k.log2) < 2 ^ (k.log2 + 1) * 2 ^ (52 - k.log2) :=
    Nat.mul_lt_mul_of_pos_right hhigh (Nat.two_pow_pos _)
  rw [← Nat.pow_add, show k.log2 + (52 - k.log2) = 52 by omega] at h1
  rw [← Nat.pow_add, show k.log2 + 1 + (52 - k.log2) = 53 by omega] at h2
  rw [Nat.shiftLeft_eq]
  exact ⟨k * 2 ^ (52 - k.log2) - 2 ^ 52, by omega, by omega⟩

/-- The value of the sample `k / 2 ^ 53` is exact. -/
theorem value_ofFraction {k : Nat} (h : k < 0x20000000000000) :
    (ofFraction k).value = .finite ((k * grain : Nat) : Int) := by
  by_cases hk : k = 0
  · rw [hk, Nat.zero_mul]
    decide
  obtain ⟨f, hf, hshift⟩ := exists_shifted hk h
  have hl := log2_le_of_lt hk h
  have hbits : (ofFraction k).bits.toNat = (k.log2 + 970) * 2 ^ 52 + f := by
    rw [ofFraction, if_neg hk, hshift, Nat.shiftLeft_eq]
    show UInt64.toNat (UInt64.ofNat _) = _
    rw [UInt64.toNat_ofNat']
    omega
  have hexp : (ofFraction k).exponent = k.log2 + 970 := by
    rw [exponent, hbits, Nat.shiftRight_eq_div_pow]
    omega
  have hfrac : (ofFraction k).fraction = f := by
    rw [fraction, hbits]
    omega
  have hsign : (ofFraction k).sign = .plus := by
    rw [sign, hbits, if_pos (by omega)]
  have hmag : (ofFraction k).magnitude = k * grain := by
    rw [magnitude, hexp, hfrac, if_neg (by omega), ← hshift, ← Nat.shiftLeft_add,
      shiftLeft_eq_mul_grain (by omega)]
  rw [value, hexp, if_neg (by omega), hsign, hmag, Sign.apply_plus]

end Sample

end DiceSum
