import DiceSum.Sign

/-!
# Dice and groups of dice

A die has sides numbered from `1` and a sign that is put on its face. A group is a number of equal
dice. Numbers of dice and numbers of sides are positive and below `2 ^ 32`.

## Main definitions

* `DiceSum.Quantity` — a number of dice or of sides.
* `DiceSum.Die`, `DiceSum.Group` — a signed die, and equal dice thrown together.
* `DiceSum.Group.dice` — the dice of a group, one by one.
-/

namespace DiceSum

/-- A number of dice or of sides: positive and below `2 ^ 32`. -/
structure Quantity where
  /-- The number itself. -/
  toNat : Nat
  pos : 0 < toNat
  lt : toNat < 4294967296
  deriving DecidableEq, Repr

namespace Quantity

/-- The quantity `1`, meant where no number of dice is written. -/
def one : Quantity := ⟨1, by decide, by decide⟩

instance : Inhabited Quantity := ⟨one⟩

/-- The quantity of value `n`, if `n` is one. -/
def ofNat? (n : Nat) : Option Quantity :=
  if h : 0 < n ∧ n < 4294967296 then some ⟨n, h.1, h.2⟩ else none

@[ext] theorem ext {a b : Quantity} (h : a.toNat = b.toNat) : a = b := by
  cases a; cases b; cases h; rfl

@[simp] theorem ofNat?_toNat (q : Quantity) : ofNat? q.toNat = some q := by
  simp [ofNat?, q.pos, q.lt]

theorem ofNat?_eq_some {n : Nat} {q : Quantity} : ofNat? n = some q ↔ q.toNat = n := by
  constructor
  · intro h
    rw [ofNat?] at h
    split at h
    · cases h; rfl
    · cases h
  · rintro rfl
    exact ofNat?_toNat q

theorem ofNat?_eq_none {n : Nat} : ofNat? n = none ↔ n = 0 ∨ 4294967296 ≤ n := by
  rw [ofNat?]
  split <;> simp <;> omega

end Quantity

/-- A die: its faces are `1` to `sides`, and `sign` is put on the face it shows. -/
structure Die where
  sides : Quantity
  sign : Sign
  deriving DecidableEq, Repr, Inhabited

/-- A term of a dice sum: `count` equal dice. -/
structure Group where
  count : Quantity
  die : Die
  deriving DecidableEq, Repr, Inhabited

/-- The dice of a group, one by one. -/
def Group.dice (g : Group) : List Die := List.replicate g.count.toNat g.die

@[simp] theorem Group.length_dice (g : Group) : g.dice.length = g.count.toNat :=
  List.length_replicate

end DiceSum
