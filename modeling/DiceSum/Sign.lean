/-!
# Signs

The sign in front of a term of a dice sum. A term without a written sign is positive.

## Main definitions

* `DiceSum.Sign` — plus or minus; `plus` is the default.
* `DiceSum.Sign.toInt` — the factor `1` or `-1`.
* `DiceSum.Sign.apply` — an integer with the sign put on.
* `DiceSum.Sign.char`, `DiceSum.Sign.ofChar?` — the written sign and its reading.
-/

namespace DiceSum

/-- The sign of a term. -/
inductive Sign where
  | plus
  | minus
  deriving DecidableEq, Repr, Inhabited

namespace Sign

/-- The factor that a sign stands for. -/
def toInt : Sign → Int
  | plus => 1
  | minus => -1

/-- The integer `x` with the sign put on. -/
def apply (s : Sign) (x : Int) : Int := x * s.toInt

@[simp] theorem apply_plus (x : Int) : plus.apply x = x := Int.mul_one x

@[simp] theorem apply_minus (x : Int) : minus.apply x = -x := by
  rw [apply, toInt, Int.mul_neg, Int.mul_one]

/-- An integer is its magnitude with its sign put on. -/
theorem apply_natAbs (x : Int) : (if x < 0 then minus else plus).apply x.natAbs = x := by
  split
  · rw [apply_minus]
    omega
  · rw [apply_plus]
    omega

/-- The written form of a sign. -/
def char : Sign → Char
  | plus => '+'
  | minus => '-'

/-- The sign that a character stands for, if it is one. -/
def ofChar? (c : Char) : Option Sign :=
  if c = '+' then some plus else if c = '-' then some minus else none

@[simp] theorem ofChar?_char (s : Sign) : ofChar? s.char = some s := by
  cases s <;> rfl

theorem char_of_ofChar? {c : Char} {s : Sign} (h : ofChar? c = some s) : s.char = c := by
  rw [ofChar?] at h
  split at h
  · cases h; simp_all [char]
  · split at h
    · cases h; simp_all [char]
    · cases h

end Sign

end DiceSum
