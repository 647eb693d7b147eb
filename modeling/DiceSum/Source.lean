import DiceSum.Sample

/-!
# Sources of samples

A source is a state from which samples are taken one after another. Seen from any state it is an
endless row of samples.

## Main definitions

* `DiceSum.Source` — the types of states that give samples.
* `DiceSum.Source.draw` — the taking of one sample.
* `DiceSum.Source.after`, `DiceSum.Source.sample` — the state after some samples, and the sample
  with a given number, counted from zero.
* `DiceSum.Cycle` — the source that goes round a list of samples.
-/

namespace DiceSum

/-- A type of states from which samples are taken. -/
class Source (σ : Type) where
  /-- The next sample, and the state after it. -/
  next : σ → Sample × σ

namespace Source

variable {σ : Type} [Source σ]

/-- Takes the next sample. -/
def draw : StateM σ Sample := fun s => next s

/-- The state after `n` samples. -/
def after (s : σ) : Nat → σ
  | 0 => s
  | n + 1 => after (next s).2 n

/-- The sample with number `n`, counted from zero. -/
def sample (s : σ) (n : Nat) : Sample := (next (after s n)).1

theorem after_succ (s : σ) (n : Nat) : after s (n + 1) = after (next s).2 n := rfl

theorem after_add (s : σ) (m n : Nat) : after s (m + n) = after (after s m) n := by
  induction m generalizing s with
  | zero => rw [Nat.zero_add]; rfl
  | succ m ih => rw [Nat.succ_add, after_succ, after_succ, ih]

end Source

/-! ### Lists of samples -/

/-- A non-empty list of samples that starts over when it ends. -/
structure Cycle where
  samples : Array Sample
  /-- The number of samples that have been taken. -/
  position : Nat
  size_pos : 0 < samples.size

namespace Cycle

/-- The source at the start of a list of samples, if there are any. -/
def ofArray? (samples : Array Sample) : Option Cycle :=
  if h : 0 < samples.size then some ⟨samples, 0, h⟩ else none

/-- The sample with number `n` of the list repeated without end. -/
def get (c : Cycle) (n : Nat) : Sample :=
  have : n % c.samples.size < c.samples.size := Nat.mod_lt n c.size_pos
  c.samples[n % c.samples.size]

instance : Source Cycle where
  next c := (c.get c.position, { c with position := c.position + 1 })

end Cycle

end DiceSum
