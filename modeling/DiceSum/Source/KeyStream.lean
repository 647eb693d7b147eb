/-!
# The key stream of ChaCha with twelve rounds

A key of eight words of 32 bits gives an endless row of such words, in blocks of sixteen. Block
number `n` is made from a square of sixteen words: four constants, the key, `n` as two words and two
zeros. Six double rounds mix the square, each first along the columns and then along the diagonals,
and the square from before is added to the result.

## Main definitions

* `DiceSum.KeyStream.Key`, `DiceSum.KeyStream.Square` — eight and sixteen words.
* `DiceSum.KeyStream.quarterRound`, `DiceSum.KeyStream.doubleRound` — the mixing.
* `DiceSum.KeyStream.block`, `DiceSum.KeyStream.word` — a block, and a word of the whole row.
-/

namespace DiceSum.KeyStream

/-- The key of a key stream. -/
abbrev Key := Vector UInt32 8

/-- The words that are mixed: four rows of four. -/
abbrev Square := Vector UInt32 16

/-- A word turned to the left by `n` bits, for `n` from 1 to 31. -/
def rotateLeft (x n : UInt32) : UInt32 := (x <<< n) ||| (x >>> (32 - n))

/-- Adds word `j` to word `i`, puts the sum into word `k` by exclusive or, and turns word `k`. -/
def stir (i j k : Fin 16) (n : UInt32) (v : Square) : Square :=
  let v := v.set i (v[i] + v[j])
  v.set k (rotateLeft (v[k] ^^^ v[i]) n)

/-- The mixing of four words. -/
def quarterRound (a b c d : Fin 16) (v : Square) : Square :=
  stir c d b 7 (stir a b d 8 (stir c d b 12 (stir a b d 16 v)))

/-- The mixing of the four columns and then of the four diagonals. -/
def doubleRound (v : Square) : Square :=
  let v := quarterRound 0 4 8 12 v
  let v := quarterRound 1 5 9 13 v
  let v := quarterRound 2 6 10 14 v
  let v := quarterRound 3 7 11 15 v
  let v := quarterRound 0 5 10 15 v
  let v := quarterRound 1 6 11 12 v
  let v := quarterRound 2 7 8 13 v
  quarterRound 3 4 9 14 v

/-- The square of block `n` before it is mixed. -/
def initial (key : Key) (n : UInt64) : Square :=
  #v[0x61707865, 0x3320646e, 0x79622d32, 0x6b206574,
    key[0], key[1], key[2], key[3],
    key[4], key[5], key[6], key[7],
    n.toUInt32, (n >>> 32).toUInt32, 0, 0]

/-- Block `n` of the key stream. -/
def block (key : Key) (n : UInt64) : Square :=
  let start := initial key n
  let mixed :=
    doubleRound (doubleRound (doubleRound (doubleRound (doubleRound (doubleRound start)))))
  Vector.zipWith (· + ·) mixed start

/-- The word with number `n` of the key stream, counted from zero. -/
def word (key : Key) (n : Nat) : UInt32 :=
  have : n % 16 < 16 := Nat.mod_lt n (by decide)
  (block key (UInt64.ofNat (n / 16)))[n % 16]

end DiceSum.KeyStream
