import DiceSum.Proofs.DrawOrder

/-!
# What the range check refuses

The range check of a dice sum is the existence of its checked bounds. If they exist, they are the
least and the greatest total, every integer between them is a total as well, and no choice of faces
leaves the range on the way to its total. For this it is enough to look at the sums after whole
groups, at their two extremes.

In the other direction the check is not exact. It asks of every group that its greatest sum fit by
itself, before that sum is added to those of the groups in front. If they have pulled the sum to the
other side, the group may stay in the range with every choice of faces and is refused nevertheless.

## Main definitions

* `DiceSum.SumsFit` — faces and a modifier that can be added up within the range.
* `DiceSum.ExtremesFit` — what the check asks for, apart from the greatest sum of each group by
  itself.

## Main results

* `DiceSum.extremesFit_iff` — this is to ask that all choices of faces can be added up.
* `DiceSum.totalsFit_iff` — the range check.
* `DiceSum.Expression.totalBounds_extremes` — the bounds of an expression are its extreme totals.
* `DiceSum.Expression.totalBounds_eq_none_iff_overflow` — the expressions that are refused.
-/

namespace DiceSum

open Word (Fits RunningFits)

variable {groups : List Group} {modifier : Int} {faces : List Int}

/-! ### Sums after whole groups -/

/-- The dice of the first groups are the first dice. -/
theorem take_diceBefore_dice (groups : List Group) (i : Nat) :
    (groups.flatMap Group.dice).take (diceBefore groups i) =
      (groups.take i).flatMap Group.dice := by
  have hsplit : groups.flatMap Group.dice =
      (groups.take i).flatMap Group.dice ++ (groups.drop i).flatMap Group.dice := by
    rw [← List.flatMap_append, List.take_append_drop]
  have hlength : ((groups.take i).flatMap Group.dice).length = diceBefore groups i := by
    rw [List.length_flatMap, diceBefore]
    simp only [Group.length_dice]
  rw [hsplit, List.take_left' hlength]

theorem runningFits_groups {f : Die → Int}
    (h : ∀ i, Fits (((groups.flatMap Group.dice).map f).take (diceBefore groups i)).sum) :
    RunningFits 0 (groups.map fun g => g.count.toNat * f g.die) := by
  intro i
  have hi := h i
  rw [← List.map_take, take_diceBefore_dice, sum_map_dice] at hi
  rwa [Int.zero_add, ← List.map_take]

/-! ### Sums of a choice of faces -/

/-- Some faces and a modifier can be added up within the range: every sum of the first faces fits,
and so does the total. -/
structure SumsFit (faces : List Int) (modifier : Int) : Prop where
  running : RunningFits 0 faces
  total : Fits (faces.sum + modifier)

/-- The least and the greatest sums over the first groups and the least and the greatest total
fit. -/
structure ExtremesFit (groups : List Group) (modifier : Int) : Prop where
  low : RunningFits 0 (groups.map Group.low)
  high : RunningFits 0 (groups.map Group.high)
  low_total : Fits ((groups.map Group.low).sum + modifier)
  high_total : Fits ((groups.map Group.high).sum + modifier)

namespace ExtremesFit

/-- The extremes fit if no choice of faces leaves the range after a whole group or with its
total. -/
theorem of_groupwise
    (h : ∀ faces, FaceChoice (groups.flatMap Group.dice) faces →
      (∀ i, Fits (faces.take (diceBefore groups i)).sum) ∧ Fits (faces.sum + modifier)) :
    ExtremesFit groups modifier := by
  obtain ⟨hlow, hlowTotal⟩ := h _ (faceChoice_low _)
  obtain ⟨hhigh, hhighTotal⟩ := h _ (faceChoice_high _)
  rw [sum_low_dice] at hlowTotal
  rw [sum_high_dice] at hhighTotal
  refine ⟨?_, ?_, hlowTotal, hhighTotal⟩
  · simpa only [← Group.low_eq] using runningFits_groups hlow
  · simpa only [← Group.high_eq] using runningFits_groups hhigh

theorem sumsFit (h : ExtremesFit groups modifier)
    (hfaces : FaceChoice (groups.flatMap Group.dice) faces) : SumsFit faces modifier :=
  ⟨hfaces.runningFits h.low h.high, hfaces.fits_total h.low_total h.high_total⟩

end ExtremesFit

/-- The extremes fit exactly when all choices of faces can be added up within the range. -/
theorem extremesFit_iff :
    ExtremesFit groups modifier ↔
      ∀ faces, FaceChoice (groups.flatMap Group.dice) faces → SumsFit faces modifier := by
  refine ⟨fun h faces => h.sumsFit, fun h => .of_groupwise fun faces hfaces => ⟨fun i => ?_, ?_⟩⟩
  · simpa only [Int.zero_add] using (h faces hfaces).running (diceBefore groups i)
  · exact (h faces hfaces).total

/-! ### The greatest sum of a group by itself -/

namespace Group

/-- The number `2 ^ 63`, which fits only with a minus sign, is not the span of a group: it has no
two factors below `2 ^ 32`. -/
theorem span_ne_two_pow (g : Group) : g.span ≠ 2 ^ 63 := by
  intro h
  have hmul : g.count.toNat * g.die.sides.toNat = 2 ^ 63 := by
    rw [span] at h
    exact_mod_cast h
  have hfactor (q : Quantity) (hq : q.toNat ∣ 2 ^ 63) : q.toNat ≤ 2 ^ 31 := by
    obtain ⟨k, -, hk⟩ := (Nat.dvd_prime_pow Nat.prime_two).mp hq
    have hlt : 2 ^ k < 2 ^ 32 := hk ▸ q.lt
    have hk31 : k ≤ 31 := Nat.lt_succ_iff.mp ((Nat.pow_lt_pow_iff_right (by omega)).mp hlt)
    rw [hk]
    exact Nat.pow_le_pow_right (by omega) hk31
  have hle := Nat.mul_le_mul (hfactor g.count (Dvd.intro _ hmul))
    (hfactor g.die.sides (Dvd.intro_left _ hmul))
  rw [hmul] at hle
  omega

variable {g : Group}

theorem low_nonneg_of_plus (h : g.die.sign = .plus) : 0 ≤ g.low := by
  rw [low, h]
  exact Int.natCast_nonneg _

theorem high_nonneg_of_plus (h : g.die.sign = .plus) : 0 ≤ g.high := by
  rw [high, h]
  exact g.span_nonneg

theorem low_nonpos_of_minus (h : g.die.sign = .minus) : g.low ≤ 0 := by
  rw [low, h]
  exact Int.neg_nonpos_of_nonneg g.span_nonneg

theorem high_nonpos_of_minus (h : g.die.sign = .minus) : g.high ≤ 0 := by
  rw [high, h]
  exact Int.neg_nonpos_of_nonneg (Int.natCast_nonneg _)

end Group

/-- The range check is passed exactly when the greatest sum of each group fits by itself and all
choices of faces can be added up within the range. -/
theorem totalsFit_iff :
    TotalsFit groups modifier ↔
      (∀ g ∈ groups, g.span ≤ Word.greatest) ∧ ExtremesFit groups modifier := by
  simp only [← Group.fits_span_iff]
  exact ⟨fun h => ⟨h.span, h.low, h.high, h.low_total, h.high_total⟩,
    fun h => ⟨h.1, h.2.low, h.2.high, h.2.low_total, h.2.high_total⟩⟩

theorem fits_sum_upTo {f : Group → Int} {before after : List Group} {g : Group}
    (h : RunningFits 0 ((before ++ g :: after).map f)) : Fits ((before.map f).sum + f g) := by
  rw [List.map_append, List.map_cons, Word.runningFits_append, Word.runningFits_cons,
    Int.zero_add] at h
  exact h.2.2.fits_start

/-- A group whose greatest sum does not fit leaves the range, unless a group before it has the other
sign. -/
theorem not_extremesFit_of_span {before after : List Group} {g : Group}
    (hspan : Word.greatest < g.span) (hsign : ∀ b ∈ before, b.die.sign = g.die.sign) :
    ¬ ExtremesFit (before ++ g :: after) modifier := by
  intro h
  have hne := g.span_ne_two_pow
  rw [Word.greatest] at hspan
  cases hg : g.die.sign with
  | plus =>
    have hbefore : 0 ≤ (before.map Group.high).sum := by
      refine List.sum_nonneg fun x hx => ?_
      obtain ⟨b, hb, rfl⟩ := List.mem_map.mp hx
      exact Group.high_nonneg_of_plus ((hsign b hb).trans hg)
    have hhigh : g.high = g.span := by rw [Group.high, hg]
    have hfits := fits_sum_upTo h.high
    rw [hhigh, Word.fits_iff] at hfits
    omega
  | minus =>
    have hbefore : (before.map Group.low).sum ≤ 0 := by
      refine Word.sum_nonpos fun x hx => ?_
      obtain ⟨b, hb, rfl⟩ := List.mem_map.mp hx
      exact Group.low_nonpos_of_minus ((hsign b hb).trans hg)
    have hlow : g.low = -g.span := by rw [Group.low, hg]
    -- The least word is `-2 ^ 63`, so a span of exactly `2 ^ 63` would still fit on this side.
    have hfits := fits_sum_upTo h.low
    rw [hlow, Word.fits_iff] at hfits
    omega

namespace Expression

/-! ### The bounds of an expression -/

/-- **The checked bounds are the extreme totals.** If they exist, they are the least and the
greatest total over all choices of one face for each die; all choices can be added up within the
range, and every integer between the bounds is the total of one. They do exist if the greatest sum
of each group fits by itself and no choice leaves the range after a whole group or with its
total. -/
theorem totalBounds_extremes (e : Expression) :
    (∀ b, totalBounds e.groups e.modifier = some b →
      IsLeast {total | e.Reaches total} b.low ∧ IsGreatest {total | e.Reaches total} b.high ∧
      (∀ faces, FaceChoice e.dice faces → SumsFit faces e.modifier) ∧
      ∀ total, b.low ≤ total → total ≤ b.high → ∃ faces, FaceChoice e.dice faces ∧
        faces.sum + e.modifier = total ∧ SumsFit faces e.modifier) ∧
    ((∀ g ∈ e.groups, g.span ≤ Word.greatest) →
      (∀ faces, FaceChoice e.dice faces →
        (∀ i, Fits (faces.take (diceBefore e.groups i)).sum) ∧ Fits (faces.sum + e.modifier)) →
      ∃ b, totalBounds e.groups e.modifier = some b) := by
  constructor
  · intro b hb
    obtain ⟨hfit, rfl⟩ := totalBounds_eq_some_iff.mp hb
    have hsums : ∀ faces, FaceChoice e.dice faces → SumsFit faces e.modifier :=
      extremesFit_iff.mp (totalsFit_iff.mp hfit).2
    refine ⟨⟨e.reaches_low, fun total h => h.low_le⟩, ⟨e.reaches_high, fun total h => h.le_high⟩,
      hsums, fun total hlow hhigh => ?_⟩
    rw [← sum_low_dice] at hlow
    rw [← sum_high_dice] at hhigh
    obtain ⟨faces, hfaces, hsum⟩ : ∃ faces, FaceChoice e.dice faces ∧
        faces.sum = total - e.modifier :=
      exists_faceChoice_sum_eq (Int.le_sub_right_of_add_le hlow) (Int.sub_right_le_of_le_add hhigh)
    exact ⟨faces, hfaces, by rw [hsum, Int.sub_add_cancel], hsums faces hfaces⟩
  · intro hspan hgroupwise
    exact ⟨_, totalBounds_eq_some_iff.mpr ⟨totalsFit_iff.mpr ⟨hspan, .of_groupwise hgroupwise⟩, rfl⟩⟩

theorem totalBounds_extremes_reachingGreatest :
    totalBounds reachingGreatest.groups reachingGreatest.modifier =
      some ⟨9223372036854775799, Word.greatest⟩ ∧
    IsLeast {total | reachingGreatest.Reaches total} 9223372036854775799 ∧
    IsGreatest {total | reachingGreatest.Reaches total} Word.greatest ∧
    (∃ faces, FaceChoice reachingGreatest.dice faces ∧
      faces.sum + reachingGreatest.modifier = 9223372036854775803 ∧
      SumsFit faces reachingGreatest.modifier) ∧
    ∃ b, totalBounds reachingGreatest.groups reachingGreatest.modifier = some b := by
  have hbounds : totalBounds reachingGreatest.groups reachingGreatest.modifier =
      some ⟨9223372036854775799, Word.greatest⟩ := by decide
  obtain ⟨hextremes, hexists⟩ := totalBounds_extremes reachingGreatest
  obtain ⟨hleast, hgreatest, hsums, hbetween⟩ := hextremes _ hbounds
  refine ⟨hbounds, hleast, hgreatest, hbetween 9223372036854775803 (by decide) (by decide),
    hexists (by decide) fun faces hfaces => ⟨fun i => ?_, (hsums faces hfaces).total⟩⟩
  simpa only [Int.zero_add] using (hsums faces hfaces).running (diceBefore _ i)

/-- **What the range check refuses.** An expression has no checked bounds exactly when the greatest
sum of some group does not fit by itself or some choice of faces leaves the range, on the way or
with its total. The first implies the second if no group before has the other sign. -/
theorem totalBounds_eq_none_iff_overflow (e : Expression) :
    (totalBounds e.groups e.modifier = none ↔
      (∃ g ∈ e.groups, Word.greatest < g.span) ∨
        ∃ faces, FaceChoice e.dice faces ∧ ¬ SumsFit faces e.modifier) ∧
    ∀ before g after, e.groups = before ++ g :: after → Word.greatest < g.span →
      (∀ b ∈ before, b.die.sign = g.die.sign) →
      ∃ faces, FaceChoice e.dice faces ∧ ¬ SumsFit faces e.modifier := by
  have hchoice : (∃ faces, FaceChoice e.dice faces ∧ ¬ SumsFit faces e.modifier) ↔
      ¬ ExtremesFit e.groups e.modifier := by
    rw [extremesFit_iff, not_forall]
    simp only [Classical.not_imp, dice]
  rw [hchoice, totalBounds_eq_none_iff, totalsFit_iff, not_and_or]
  constructor
  · simp only [not_forall, Int.not_le, exists_prop]
  · intro before g after hgroups hspan hsign
    rw [hgroups]
    exact not_extremesFit_of_span hspan hsign

/-- A group whose greatest sum is `2 ^ 63 + 2`. -/
def wideGroup : Group :=
  ⟨⟨2147549185, by decide, by decide⟩, ⟨⟨4294836226, by decide, by decide⟩, .plus⟩⟩

/-- Three dice of one side that are subtracted. -/
def threeTaken : Group := ⟨⟨3, by decide, by decide⟩, ⟨.one, .minus⟩⟩

/-- The wide group in front. -/
def wideBefore : Expression where
  groups := [wideGroup, threeTaken]
  modifier := 0
  groups_ne_nil := by decide
  modifier_fits := by decide

theorem totalBounds_eq_none_wideBefore :
    totalBounds wideBefore.groups wideBefore.modifier = none ∧
    ∃ faces, FaceChoice wideBefore.dice faces ∧ ¬ SumsFit faces wideBefore.modifier := by
  obtain ⟨hiff, hwide⟩ := totalBounds_eq_none_iff_overflow wideBefore
  have hspan : Word.greatest < wideGroup.span := by decide
  exact ⟨hiff.mpr (.inl ⟨wideGroup, .head _, hspan⟩),
    hwide [] wideGroup [threeTaken] rfl hspan fun b hb => nomatch hb⟩

/-- The wide group behind the dice that are subtracted. -/
def wideBehind : Expression where
  groups := [threeTaken, wideGroup]
  modifier := 0
  groups_ne_nil := by decide
  modifier_fits := by decide

/-- The dice that are subtracted first keep every sum of a choice in the range, whose end the
greatest total just reaches. The notation is rejected for its totals nevertheless. -/
theorem sumsFit_wideBehind :
    wideBehind.text = "-3d1+2147549185d4294836226" ∧
    parse "-3d1+2147549185d4294836226" = .error ⟨.totalOverflow, 26, ""⟩ ∧
    totalBounds wideBehind.groups wideBehind.modifier = none ∧
    ∀ faces, FaceChoice wideBehind.dice faces → SumsFit faces wideBehind.modifier := by
  refine ⟨by cbv, by cbv, by decide, extremesFit_iff.mp ⟨?_, ?_, by decide, by decide⟩⟩
  · simp only [wideBehind, List.map, Word.runningFits_cons, Word.runningFits_nil]
    decide
  · simp only [wideBehind, List.map, Word.runningFits_cons, Word.runningFits_nil]
    decide

end Expression

end DiceSum
