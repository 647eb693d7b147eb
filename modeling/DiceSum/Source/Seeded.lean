import DiceSum.Source
import DiceSum.Source.KeyStream

/-!
# Samples from a seed

A seed of 64 bits is stretched to the key of a key stream by a linear congruential generator, whose
states are scrambled to give one word of the key each. Two words of the key stream, the low one
first, make a number of 64 bits, and its 53 high bits make a sample in the unit interval.

## Main definitions

* `DiceSum.Seeded` — the source, at some number of samples from its start.
* `DiceSum.Seeded.ofSeed` — its start for a seed.
* `DiceSum.Seeded.get` — the sample with a given number.

## Main results

* `DiceSum.Seeded.sample_ofSeed` — the samples of a seed.
-/

namespace DiceSum

/-- The samples of a key stream, at some number of samples from the start. -/
structure Seeded where
  key : KeyStream.Key
  /-- The number of samples that have been taken. -/
  position : Nat

namespace Seeded

/-! ### From the seed to the key -/

/-- The next state of the generator that stretches a seed. -/
def advance (state : UInt64) : UInt64 := state * 6364136223846793005 + 11634580027462260723

/-- The word that a state gives: some of its high bits, folded and turned to the right by the
number in its five highest bits. -/
def scramble (state : UInt64) : UInt32 :=
  let x := (((state >>> 18) ^^^ state) >>> 27).toUInt32
  let n := (state >>> 59).toUInt32
  (x >>> n) ||| (x <<< ((32 - n) % 32))

/-- The state after `n` steps. -/
def stateAfter (seed : UInt64) : Nat → UInt64
  | 0 => seed
  | n + 1 => advance (stateAfter seed n)

/-- The key of a seed: the words of the first eight states after it. -/
def keyOfSeed (seed : UInt64) : KeyStream.Key :=
  Vector.ofFn fun i => scramble (stateAfter seed (i.val + 1))

/-- The start of the samples of a seed. -/
def ofSeed (seed : UInt64) : Seeded := ⟨keyOfSeed seed, 0⟩

/-! ### From the key stream to the samples -/

/-- The number with the low word `low` and the high word `high`. -/
def join (low high : UInt32) : UInt64 := low.toUInt64 ||| (high.toUInt64 <<< 32)

/-- The sample with number `n` of a key stream. -/
def get (key : KeyStream.Key) (n : Nat) : Sample :=
  let u := join (KeyStream.word key (2 * n)) (KeyStream.word key (2 * n + 1))
  Sample.ofFraction (u >>> 11).toNat

instance : Source Seeded where
  next s := (get s.key s.position, { s with position := s.position + 1 })

theorem next_eq (s : Seeded) :
    Source.next s = (get s.key s.position, { s with position := s.position + 1 }) := rfl

theorem after_eq (s : Seeded) (n : Nat) :
    Source.after s n = { s with position := s.position + n } := by
  induction n generalizing s with
  | zero => rfl
  | succ n ih => rw [Source.after_succ, ih, next_eq, Nat.add_assoc, Nat.add_comm 1 n]

/-- The samples of a seed are those of the key stream of its key, none left out. -/
theorem sample_ofSeed (seed : UInt64) (n : Nat) :
    Source.sample (ofSeed seed) n = get (keyOfSeed seed) n := by
  rw [Source.sample, after_eq]
  exact congrArg (get (keyOfSeed seed)) (Nat.zero_add n)

end Seeded

end DiceSum
