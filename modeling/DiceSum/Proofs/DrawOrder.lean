import DiceSum.Proofs.Overflow
import DiceSum.Proofs.Stream

/-!
# Which die takes which sample

The dice of an expression are numbered through from zero, group after group, and die number `k`
takes sample number `k`. The group of a die is the one whose range of numbers, between the numbers
of dice of the groups before it and of the groups up to it, contains the number of the die. So every
signed face of a roll is known from the groups and the stream of samples alone, and the total from
the faces.

## Main definitions

* `DiceSum.diceBefore` — the number of dice of the first groups.
* `DiceSum.BelongsTo` — the group of a die, by their numbers.

## Main results

* `DiceSum.existsUnique_belongsTo` — every die has one group.
* `DiceSum.Expression.getElem?_throws` — the throw of each die.
* `DiceSum.Expression.roll_die_by_die` — the roll of an expression.
-/

namespace DiceSum

open Word (Fits RunningFits)

/-! ### The group of a die -/

/-- The number of dice of the first `i` groups of a row. -/
def diceBefore (groups : List Group) (i : Nat) : Nat :=
  ((groups.take i).map fun g => g.count.toNat).sum

/-- Die number `k` of a row of groups is a die of group number `i`. -/
def BelongsTo (groups : List Group) (k i : Nat) : Prop :=
  diceBefore groups i ≤ k ∧ k < diceBefore groups (i + 1)

variable {g : Group} {groups : List Group} {i j k : Nat}

@[simp] theorem diceBefore_zero (groups : List Group) : diceBefore groups 0 = 0 := rfl

@[simp] theorem diceBefore_cons_succ (g : Group) (groups : List Group) (i : Nat) :
    diceBefore (g :: groups) (i + 1) = g.count.toNat + diceBefore groups i := by
  simp [diceBefore]

theorem diceBefore_mono (h : i ≤ j) : diceBefore groups i ≤ diceBefore groups j :=
  ((List.take_sublist_take_left h).map _).sum_le_sum fun _ _ => Nat.zero_le _

theorem belongsTo_cons_zero : BelongsTo (g :: groups) k 0 ↔ k < g.count.toNat := by
  simp [BelongsTo]

theorem belongsTo_cons_succ :
    BelongsTo (g :: groups) k (i + 1) ↔
      g.count.toNat ≤ k ∧ BelongsTo groups (k - g.count.toNat) i := by
  simp only [BelongsTo, diceBefore_cons_succ]
  omega

theorem BelongsTo.eq (hi : BelongsTo groups k i) (hj : BelongsTo groups k j) : i = j := by
  have hnot {i j : Nat} (hi : BelongsTo groups k i) (hj : BelongsTo groups k j) : ¬ i < j := by
    intro hlt
    have hmono : diceBefore groups (i + 1) ≤ diceBefore groups j := diceBefore_mono hlt
    exact absurd (hmono.trans hj.1) (Nat.not_le.mpr hi.2)
  exact Nat.le_antisymm (Nat.not_lt.mp (hnot hj hi)) (Nat.not_lt.mp (hnot hi hj))

/-- The group of a die is one of the row. -/
theorem BelongsTo.exists_group (h : BelongsTo groups k i) : ∃ g, groups[i]? = some g := by
  rw [← Option.ne_none_iff_exists', ne_eq, List.getElem?_eq_none_iff, Nat.not_le]
  by_contra hi
  have hlength : groups.length ≤ i := Nat.not_lt.mp hi
  have heq : diceBefore groups (i + 1) = diceBefore groups i := by
    rw [diceBefore, diceBefore, List.take_of_length_le (by omega), List.take_of_length_le hlength]
  exact absurd h.1 (Nat.not_le.mpr (heq ▸ h.2))

/-- Every die of a row of groups belongs to exactly one of them. -/
theorem existsUnique_belongsTo (h : k < (groups.flatMap Group.dice).length) :
    ∃! i, BelongsTo groups k i := by
  suffices hexists : ∃ i, BelongsTo groups k i by
    obtain ⟨i, hi⟩ := hexists
    exact ⟨i, hi, fun j hj => hj.eq hi⟩
  induction groups generalizing k with
  | nil => exact absurd h (Nat.not_lt_zero k)
  | cons g groups ih =>
    rcases Nat.lt_or_ge k g.count.toNat with hk | hk
    · exact ⟨0, belongsTo_cons_zero.mpr hk⟩
    · rw [List.flatMap_cons, List.length_append, Group.length_dice] at h
      obtain ⟨i, hi⟩ := ih (k := k - g.count.toNat) (by omega)
      exact ⟨i + 1, belongsTo_cons_succ.mpr ⟨hk, hi⟩⟩

theorem getElem?_dice (hk : BelongsTo groups k i) (hg : groups[i]? = some g) :
    (groups.flatMap Group.dice)[k]? = some g.die := by
  induction groups generalizing k i with
  | nil => cases hg
  | cons g' groups ih =>
    rw [List.flatMap_cons]
    cases i with
    | zero =>
      obtain rfl : g' = g := Option.some.inj hg
      have hlt := belongsTo_cons_zero.mp hk
      rw [List.getElem?_append_left (by rwa [Group.length_dice]), Group.dice,
        List.getElem?_replicate_of_lt hlt]
    | succ i =>
      obtain ⟨hle, hrest⟩ := belongsTo_cons_succ.mp hk
      rw [List.getElem?_append_right (by rwa [Group.length_dice]), Group.length_dice]
      exact ih hrest hg

namespace Expression

variable {σ : Type} [Source σ] {e : Expression}

theorem diceCount_eq (e : Expression) :
    e.diceCount = (e.groups.map fun g => g.count.toNat).sum := by
  rw [diceCount, List.sum, List.foldr_map]

/-! ### The throws of an expression -/

/-- Each die takes the sample of its own number. -/
theorem getElem?_throws (source : σ) (hk : BelongsTo e.groups k i) (hg : e.groups[i]? = some g) :
    (throwAll e.dice source).1[k]? = some ⟨g.die, Source.sample source k⟩ := by
  rw [getElem?_throwAll, dice, getElem?_dice hk hg, Option.map_some]

theorem state_roll (e : Expression) (source : σ) :
    (e.roll source).2 = Source.after source e.diceCount := by
  rw [← length_dice]
  exact state_throwAll e.dice source

theorem length_faces_roll (e : Expression) (source : σ) :
    (e.roll source).1.value.faces.length = e.diceCount := by
  rw [faces_roll, List.length_map, length_throwAll, length_dice]

theorem roll_eq (e : Expression) (source : σ) :
    e.roll source =
      (⟨Roll.ofThrows (throwAll e.dice source).1 e.modifier,
        (throwAll e.dice source).1.map Throw.event ++
          [.evaluated e.text (Roll.ofThrows (throwAll e.dice source).1 e.modifier).total]⟩,
        (throwAll e.dice source).2) := rfl

/-- Counting the samples does not change a roll. -/
theorem roll_metered (e : Expression) (m : Metered σ) : (e.roll m).1 = (e.roll m.source).1 := by
  rw [roll_eq, roll_eq, throwAll_metered]

/-- A roll takes one sample for each die, none more and none less. -/
theorem roll_metered_eq (e : Expression) (source : σ) (n : Nat) :
    e.roll (⟨source, n⟩ : Metered σ) =
      ((e.roll source).1, ⟨Source.after source e.diceCount, n + e.diceCount⟩) := by
  refine Prod.ext (e.roll_metered ⟨source, n⟩) ?_
  rw [state_roll, Source.after_metered]

theorem getElem?_faces_roll (source : σ) (hk : BelongsTo e.groups k i)
    (hg : e.groups[i]? = some g) :
    (e.roll source).1.value.faces[k]? =
      some (g.die.sign.apply ((Source.sample source k).face g.die.sides)) := by
  rw [faces_roll, List.getElem?_map, getElem?_throws source hk hg]
  rfl

/-- **Every die gets its own sample, in order.** A roll takes as many samples as there are dice and
leaves the source behind them. Signed face number `k` is made of sample number `k`, with the sides
and the sign of the group to which die number `k` belongs; its magnitude is a face of the die. The
modifier is that of the expression, and the total adds it to the signed faces as they are. In words,
the roll has these faces and this total exactly if it does not stop for an overflow, which is when
all products are in reach and all sums on the way fit. -/
theorem roll_die_by_die (e : Expression) (source : σ) :
    (e.roll source).2 = Source.after source e.diceCount ∧
    (∀ n, e.roll (⟨source, n⟩ : Metered σ) =
      ((e.roll source).1, ⟨Source.after source e.diceCount, n + e.diceCount⟩)) ∧
    e.diceCount = (e.groups.map fun g => g.count.toNat).sum ∧
    (e.roll source).1.value.faces.length = e.diceCount ∧
    (∀ k < e.diceCount, ∃! i, BelongsTo e.groups k i) ∧
    (∀ k i, BelongsTo e.groups k i → ∃ g x, e.groups[i]? = some g ∧
        (e.roll source).1.value.faces[k]? = some x ∧
        x = g.die.sign.apply ((Source.sample source k).face g.die.sides) ∧
        1 ≤ x.natAbs ∧ x.natAbs ≤ g.die.sides.toNat ∧ x = g.die.sign.apply x.natAbs) ∧
    (e.roll source).1.value.modifier = e.modifier ∧
    (e.roll source).1.value.total = (e.roll source).1.value.faces.sum + e.modifier ∧
    ∀ r, e.wordRoll? source = some r ↔
      (∀ t ∈ (throwAll e.dice source).1, t.InReach) ∧
      RunningFits 0 (e.roll source).1.value.faces ∧
      Fits ((e.roll source).1.value.faces.sum + e.modifier) ∧
      r = ((e.roll source).1.value.faces, (e.roll source).1.value.total) := by
  refine ⟨e.state_roll source, e.roll_metered_eq source, e.diceCount_eq,
    e.length_faces_roll source, fun k hk => ?_, fun k i hk => ?_, e.modifier_roll source,
    Roll.total_eq _, fun r => wordRoll?_eq_some_iff⟩
  · rw [← length_dice] at hk
    exact existsUnique_belongsTo hk
  · obtain ⟨g, hg⟩ := hk.exists_group
    have hshows := Die.shows_iff.mp (Throw.shows_signedFace ⟨g.die, Source.sample source k⟩)
    exact ⟨g, _, hg, getElem?_faces_roll source hk hg, rfl, hshows⟩

/-- Two dice that are added, one that is subtracted, and a negative modifier. -/
def twoAddedOneTaken : Expression where
  groups := [⟨⟨2, by decide, by decide⟩, ⟨sixSides, .plus⟩⟩, ⟨.one, ⟨fourSides, .minus⟩⟩]
  modifier := -3
  groups_ne_nil := by decide
  modifier_fits := by decide

/-- No number, negative infinity, and the greatest sample below one. -/
def oddSamples : Cycle := ⟨#[⟨0x7ff8000000000000⟩, ⟨0xfff0000000000000⟩, ⟨0x3fefffffffffffff⟩],
  0, by decide⟩

theorem roll_die_by_die_oddSamples :
    BelongsTo twoAddedOneTaken.groups 2 1 ∧
    (twoAddedOneTaken.roll oddSamples).1.value.faces[2]? =
      some (-(Source.sample oddSamples 2).face ⟨4, by decide, by decide⟩) ∧
    twoAddedOneTaken.wordRoll? oddSamples = some ([1, 1, -4], -5) ∧
    (twoAddedOneTaken.roll oddSamples).1.value.total = -5 := by
  have hbelongs : BelongsTo twoAddedOneTaken.groups 2 1 := by
    simp only [BelongsTo, diceBefore]
    decide
  have hword : twoAddedOneTaken.wordRoll? oddSamples = some ([1, 1, -4], -5) := by decide +kernel
  obtain ⟨-, -, -, -, -, hface, -, -, hroll⟩ := roll_die_by_die twoAddedOneTaken oddSamples
  obtain ⟨g, x, hg, hx, hxface, -⟩ := hface 2 1 hbelongs
  obtain ⟨-, -, -, hpair⟩ := (hroll _).mp hword
  obtain rfl : (⟨.one, ⟨⟨4, by decide, by decide⟩, .minus⟩⟩ : Group) = g := Option.some.inj hg
  rw [Sign.apply_minus] at hxface
  exact ⟨hbelongs, hxface ▸ hx, hword, (Prod.ext_iff.mp hpair).2.symm⟩

end Expression

end DiceSum
