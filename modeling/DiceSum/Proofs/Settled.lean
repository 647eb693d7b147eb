import DiceSum.Proofs.Buckets
import DiceSum.Proofs.Overflow
import DiceSum.Proofs.Stream

/-!
# Rolls with unchecked sums

An unchecked operation on words gives the exact result if it fits. If it does not, what becomes of
it depends on how the program was built: it may stop, or go on with some other word. A roll is
carried out here, together with its log, without a choice between these. The only operation of the
roll of an accepted notation that can overflow adds one to the integer part of a product, and what
it gives is brought into the range of the die, whatever it is. So such a roll shows faces of its
dice and adds them up exactly, unless it stops.

## Main definitions

* `DiceSum.Word.settle` — the result of an unchecked operation.
* `DiceSum.Throw.settle?`, `DiceSum.Roll.settledTotal?`, `DiceSum.Expression.settledRoll?`,
  `DiceSum.settledNotation?` — throws, totals, rolls and notations with unchecked operations.

## Main results

* `DiceSum.Throw.settle?_eq`, `DiceSum.Throw.isSome_settle?_iff` — one throw.
* `DiceSum.Expression.settledRoll?_eq` — the roll of an expression whose totals fit.
* `DiceSum.Expression.settledRoll?_of_inReach`, `DiceSum.Expression.inReach_of_lt_one` — the roll of
  products in reach, as those of samples below one are.
* `DiceSum.Expression.wordRoll?_eq_map` — a roll in words is one that stops for any overflow.
-/

namespace DiceSum

open Word (Fits RunningFits)

/-- What an unchecked operation with the exact result `x` gives: `x` itself if it is a word, and
otherwise what an overflow comes to, which is nothing if it stops the program. -/
def Word.settle (overflow : Int → Option Int) (x : Int) : Option Int :=
  if Fits x then some x else overflow x

variable {overflow : Int → Option Int} {x : Int}

theorem Word.settle_of_fits (h : Fits x) : settle overflow x = some x := if_pos h

theorem Word.settle_of_not_fits (h : ¬ Fits x) : settle overflow x = overflow x := if_neg h

theorem Word.settle_none : settle (fun _ => none) = checked := rfl

/-! ### One throw -/

namespace Throw

/-- The signed face that is shown if `n` is what adding one to the integer part gives. -/
def shown (t : Throw) (n : Int) : Int := t.die.sign.apply (max 1 (min n t.die.sides.toNat))

/-- The entry in the log of a throw with the signed face `x`. -/
def entry (t : Throw) (x : Int) : Event := .thrown t.sample t.die.sides x.natAbs

/-- The entries in the log of some throws with these signed faces. -/
def entries (throws : List Throw) (faces : List Int) : List Event :=
  (throws.zip faces).map fun p => p.1.entry p.2

/-- The signed face of a throw and its entry in the log, with unchecked operations. -/
def settle? (overflow : Int → Option Int) (t : Throw) : Option (Int × Event) := do
  let n ← Word.settle overflow ((t.sample.value.times t.die.sides).floor + 1)
  let face := max 1 (min n t.die.sides.toNat)
  let x ← Word.settle overflow (t.die.sign.apply face)
  return (x, .thrown t.sample t.die.sides face)

variable {t : Throw}

theorem shows_shown (t : Throw) (n : Int) : t.die.Shows (t.shown n) := by
  have hsides := t.die.sides.pos
  exact ⟨_, by omega, by omega, rfl⟩

theorem entry_shown (t : Throw) (n : Int) :
    t.entry (t.shown n) = .thrown t.sample t.die.sides (max 1 (min n t.die.sides.toNat)) := by
  rw [entry, shown, Sign.natAbs_apply, Int.natAbs_of_nonneg (by omega)]

/-- Only the addition of one can overflow in a throw. -/
theorem settle?_eq (overflow : Int → Option Int) (t : Throw) :
    t.settle? overflow =
      (Word.settle overflow ((t.sample.value.times t.die.sides).floor + 1)).map
        fun n => (t.shown n, t.entry (t.shown n)) := by
  rw [settle?, Option.map_eq_bind]
  refine Option.bind_congr fun n _ => ?_
  rw [Function.comp_apply, entry_shown]
  -- whatever `n` is, the sign is put on a face of the die
  change (Word.settle overflow (t.shown n)).bind _ = _
  rw [Word.settle_of_fits (t.shows_shown n).fits]
  rfl

theorem exists_shown_of_settle? {p : Int × Event} (h : t.settle? overflow = some p) :
    ∃ n, p = (t.shown n, t.entry (t.shown n)) := by
  rw [settle?_eq] at h
  obtain ⟨n, -, hp⟩ := Option.map_eq_some_iff.mp h
  exact ⟨n, hp.symm⟩

theorem settle?_of_inReach (h : t.InReach) :
    t.settle? overflow = some (t.signedFace, t.event) := by
  rw [settle?_eq, Word.settle_of_fits (Sample.Value.fits_floor_add_one h), Option.map_some,
    entry_shown]
  rfl

/-- A product out of reach has the greatest word as its integer part. -/
theorem floor_of_not_inReach (h : ¬ t.InReach) :
    (t.sample.value.times t.die.sides).floor = Word.greatest := by
  have hfloor := Sample.Value.fits_floor (t.sample.value.times t.die.sides)
  have hnot : ¬ Fits ((t.sample.value.times t.die.sides).floor + 1) :=
    fun hfits => h (Sample.Value.below63_of_fits_floor_add_one hfits)
  rw [Word.fits_iff] at hfloor hnot
  rw [Word.greatest]
  omega

theorem isSome_settle?_iff :
    (t.settle? overflow).isSome ↔ t.InReach ∨ (overflow (Word.greatest + 1)).isSome := by
  by_cases h : t.InReach
  · exact iff_of_true (by rw [settle?_of_inReach h]; rfl) (.inl h)
  · rw [settle?_eq, Option.isSome_map, floor_of_not_inReach h,
      Word.settle_of_not_fits (by decide), or_iff_right h]

theorem wordFace?_eq_map (t : Throw) : t.wordFace? = (t.settle? fun _ => none).map Prod.fst := by
  rw [wordFace?, settle?, Word.settle_none]
  simp

/-! ### Rows of throws -/

variable {throws : List Throw}

/-- Throws show faces of their dice, and their entries show the same faces without the signs. -/
theorem of_mapM_settle? {shown : List (Int × Event)}
    (h : throws.mapM (settle? overflow) = some shown) :
    FaceChoice (throws.map die) (shown.map Prod.fst) ∧
      shown.map Prod.snd = entries throws (shown.map Prod.fst) := by
  induction throws generalizing shown with
  | nil =>
    obtain rfl : [] = shown := Option.some.inj h
    exact ⟨.nil, rfl⟩
  | cons t throws ih =>
    rw [List.mapM_cons] at h
    obtain ⟨p, hp, hrest⟩ := Option.bind_eq_some_iff.mp h
    obtain ⟨rest, hmap, hshown⟩ := Option.bind_eq_some_iff.mp hrest
    obtain rfl : p :: rest = shown := Option.some.inj hshown
    obtain ⟨n, rfl⟩ := exists_shown_of_settle? hp
    obtain ⟨hfaces, hentries⟩ := ih hmap
    exact ⟨.cons (t.shows_shown n) hfaces, congrArg _ hentries⟩

theorem mapM_settle?_of_inReach (h : ∀ t ∈ throws, t.InReach) :
    throws.mapM (settle? overflow) = some (throws.map fun t => (t.signedFace, t.event)) := by
  induction throws with
  | nil => rfl
  | cons t throws ih =>
    obtain ⟨ht, hthrows⟩ := List.forall_mem_cons.mp h
    rw [List.mapM_cons, settle?_of_inReach ht, ih hthrows]
    rfl

theorem isSome_mapM_settle?_iff :
    (throws.mapM (settle? overflow)).isSome ↔
      (∀ t ∈ throws, t.InReach) ∨ (overflow (Word.greatest + 1)).isSome := by
  induction throws with
  | nil => exact iff_of_true rfl (.inl (List.forall_mem_nil _))
  | cons t throws ih =>
    have hboth : ((t :: throws).mapM (settle? overflow)).isSome ↔
        (t.settle? overflow).isSome ∧ (throws.mapM (settle? overflow)).isSome := by
      rw [List.mapM_cons]
      cases t.settle? overflow <;> cases throws.mapM (settle? overflow) <;> simp
    rw [hboth, isSome_settle?_iff, ih, List.forall_mem_cons, and_or_right]

theorem mapM_wordFace?_eq_map (throws : List Throw) :
    throws.mapM wordFace? =
      (throws.mapM (settle? fun _ => none)).map (List.map Prod.fst) := by
  induction throws with
  | nil => rfl
  | cons t throws ih =>
    rw [List.mapM_cons, List.mapM_cons, ih, wordFace?_eq_map]
    cases t.settle? fun _ => none <;> cases throws.mapM (settle? fun _ => none) <;> rfl

end Throw

/-! ### Totals -/

theorem Word.foldlM_settle {start : Int} {xs : List Int} (h : RunningFits start xs) :
    xs.foldlM (fun sum x => settle overflow (sum + x)) start = some (start + xs.sum) := by
  induction xs generalizing start with
  | nil =>
    rw [List.foldlM_nil, List.sum_nil, Int.add_zero]
    rfl
  | cons x xs ih =>
    obtain ⟨-, hrest⟩ := Word.runningFits_cons.mp h
    rw [List.foldlM_cons, settle_of_fits hrest.fits_start, List.sum_cons, ← Int.add_assoc]
    exact ih hrest

/-- The total of some faces and a modifier with unchecked operations: the faces are added to `0` one
after another, then the modifier. -/
def Roll.settledTotal? (overflow : Int → Option Int) (faces : List Int) (modifier : Int) :
    Option Int := do
  let sum ← faces.foldlM (fun sum x => Word.settle overflow (sum + x)) 0
  Word.settle overflow (sum + modifier)

/-- No choice of faces makes a total overflow if the extremes fit. -/
theorem TotalsFit.settledTotal? {groups : List Group} {modifier : Int} {faces : List Int}
    (h : TotalsFit groups modifier) (hfaces : FaceChoice (groups.flatMap Group.dice) faces) :
    Roll.settledTotal? overflow faces modifier = some (faces.sum + modifier) := by
  rw [Roll.settledTotal?, Word.foldlM_settle (hfaces.runningFits h.low h.high), Int.zero_add]
  exact Word.settle_of_fits (hfaces.fits_total h.low_total h.high_total)

/-! ### Rolls and notations -/

variable {σ : Type} [Source σ] {e : Expression} {source : σ}

namespace Expression

/-- The roll of an expression with unchecked operations: the signed faces and the total, with the
log. -/
def settledRoll? (overflow : Int → Option Int) (e : Expression) (source : σ) :
    Option (Logged (List Int × Int)) := do
  let shown ← (throwAll e.dice source).1.mapM (Throw.settle? overflow)
  let faces := shown.map Prod.fst
  let total ← Roll.settledTotal? overflow faces e.modifier
  return ⟨(faces, total), shown.map Prod.snd ++ [.evaluated e.text total]⟩

/-- The products of all samples that a roll takes are in reach. -/
def InReach (e : Expression) (source : σ) : Prop := ∀ t ∈ (throwAll e.dice source).1, t.InReach

instance (e : Expression) (source : σ) : Decidable (e.InReach source) :=
  inferInstanceAs (Decidable (∀ t ∈ (throwAll e.dice source).1, t.InReach))

/-- Samples below one are in reach. -/
theorem inReach_of_lt_one
    (h : ∀ k < e.diceCount, ∃ q < 1, (Source.sample source k).value.number? = some q) :
    e.InReach source := by
  intro t ht
  obtain ⟨k, hk⟩ := List.mem_iff_getElem?.mp ht
  rw [getElem?_throwAll] at hk
  obtain ⟨d, hd, rfl⟩ := Option.map_eq_some_iff.mp hk
  obtain ⟨hlt, -⟩ := List.getElem?_eq_some_iff.mp hd
  obtain ⟨q, hq, hnumber⟩ := h k (length_dice e ▸ hlt)
  exact Sample.Value.below63_times_of_lt_one hnumber hq d.sides

theorem faceChoice_of_mapM_settle? {shown : List (Int × Event)}
    (h : (throwAll e.dice source).1.mapM (Throw.settle? overflow) = some shown) :
    FaceChoice e.dice (shown.map Prod.fst) := by
  have hfaces := (Throw.of_mapM_settle? h).1
  rwa [map_die_throwAll] at hfaces

/-- Only single throws can stop the roll of an expression whose totals fit. -/
theorem settledRoll?_eq (h : TotalsFit e.groups e.modifier) :
    e.settledRoll? overflow source =
      ((throwAll e.dice source).1.mapM (Throw.settle? overflow)).map fun shown =>
        ⟨(shown.map Prod.fst, (shown.map Prod.fst).sum + e.modifier),
          shown.map Prod.snd ++
            [.evaluated e.text ((shown.map Prod.fst).sum + e.modifier)]⟩ := by
  rw [settledRoll?, Option.map_eq_bind]
  refine Option.bind_congr fun shown hshown => ?_
  change (Roll.settledTotal? overflow (shown.map Prod.fst) e.modifier).bind _ = _
  rw [h.settledTotal? (faceChoice_of_mapM_settle? hshown)]
  rfl

theorem isSome_settledRoll?_iff (h : TotalsFit e.groups e.modifier) :
    (e.settledRoll? overflow source).isSome ↔
      e.InReach source ∨ (overflow (Word.greatest + 1)).isSome := by
  rw [settledRoll?_eq h, Option.isSome_map]
  exact Throw.isSome_mapM_settle?_iff

/-- With all products in reach, the roll is carried out as it is with integers. -/
theorem settledRoll?_of_inReach (h : TotalsFit e.groups e.modifier) (hreach : e.InReach source)
    (overflow : Int → Option Int) :
    e.settledRoll? overflow source =
      some ⟨((e.roll source).1.value.faces, (e.roll source).1.value.total),
        (e.roll source).1.events⟩ := by
  have hfaces : (throwAll e.dice source).1.map (Prod.fst ∘ fun t => (t.signedFace, t.event)) =
      (e.roll source).1.value.faces := rfl
  have htotal : (e.roll source).1.value.faces.sum + e.modifier =
      (e.roll source).1.value.total := (Roll.total_eq _).symm
  rw [settledRoll?_eq h, Throw.mapM_settle?_of_inReach hreach, Option.map_some, List.map_map,
    List.map_map, hfaces, htotal]
  rfl

theorem wordRoll?_eq_map (e : Expression) (source : σ) :
    e.wordRoll? source = (e.settledRoll? (fun _ => none) source).map Logged.value := by
  rw [wordRoll?, settledRoll?, Throw.mapM_wordFace?_eq_map]
  cases (throwAll e.dice source).1.mapM (Throw.settle? fun _ => none) with
  | none => rfl
  | some shown =>
    change (Roll.wordTotal? (shown.map Prod.fst) e.modifier).bind _ =
      ((Roll.wordTotal? (shown.map Prod.fst) e.modifier).bind _).map _
    cases Roll.wordTotal? (shown.map Prod.fst) e.modifier <;> rfl

end Expression

/-- Reads and rolls a notation with unchecked operations. -/
def settledNotation? (overflow : Int → Option Int) (s : String) (source : σ) :
    Option (Logged (Except Rejection (List Int × Int)) × σ) := do
  match ← Expression.wordParse? s with
  | .error x => return (⟨.error x, [.rejected x.diagnostic]⟩, source)
  | .ok e =>
    let l ← e.settledRoll? overflow source
    return (⟨.ok l.value, l.events⟩, (throwAll e.dice source).2)

theorem settledNotation?_of_error {s : String} {x : Rejection}
    (h : Expression.parse s = .error x) (overflow : Int → Option Int) (source : σ) :
    settledNotation? overflow s source = some (⟨.error x, [.rejected x.diagnostic]⟩, source) := by
  rw [settledNotation?, Expression.wordParse?_eq_some, h]
  rfl

theorem settledNotation?_of_ok {s : String} (h : Expression.parse s = .ok e)
    (overflow : Int → Option Int) (source : σ) :
    settledNotation? overflow s source =
      (e.settledRoll? overflow source).map fun l =>
        (⟨.ok l.value, l.events⟩, Source.after source e.diceCount) := by
  rw [settledNotation?, Expression.wordParse?_eq_some, h, Option.map_eq_bind,
    ← Expression.length_dice, ← state_throwAll]
  rfl

end DiceSum
