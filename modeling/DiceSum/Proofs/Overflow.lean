import DiceSum.Proofs.Significand
import DiceSum.Proofs.Tally

/-!
# Sums in 64-bit words

In 64-bit words an addition or a multiplication may have no result. Some operations of reading and
rolling are checked: their failure is an answer, a rejection of the notation. All others are done
without a look at the result, and a result that does not fit would stop the program. This file
carries out reading and rolling in words, with no answer for a program that has stopped, and shows
that it never stops: neither on any notation nor in the roll of an accepted one.

## Main definitions

* `DiceSum.Terms.wordRead?`, `DiceSum.Expression.wordParse?` — reading in words.
* `DiceSum.Throw.wordFace?`, `DiceSum.Roll.wordTotal?`, `DiceSum.Expression.wordRoll?` — a roll in
  words.

## Main results

* `DiceSum.Expression.wordParse?_eq_some` — reading never stops.
* `DiceSum.Expression.wordRoll?_eq_some_iff` — the rolls, of any expression, that do not stop.
* `DiceSum.Expression.roll_fits_of_parse` — nor does the roll of an accepted notation, whose total
  lies between the checked bounds.
-/

namespace DiceSum

open Word (Fits RunningFits)

/-! ### Reading -/

namespace Terms

/-- Reads a row of lexemes in words: the sign of a flat term is put on without a check, its addition
to the modifier is checked. -/
def wordRead? (position : Nat) (pending : Option Sign) (modifier : Int) :
    List Lexeme → Option (Except Rejection Terms)
  | [] => some (read position pending modifier [])
  | l :: ls =>
    match l.token with
    | .dice count sides =>
      (wordRead? (position + l.size) none modifier ls).map
        (Except.map (cons ⟨count, ⟨sides, pending.getD .plus⟩⟩))
    | .integer x =>
      (Word.checked ((pending.getD .plus).apply x)).bind fun flat =>
        match Word.checked (modifier + flat) with
        | some modifier => wordRead? (position + l.size) none modifier ls
        | none => some (.error (reject .modifierOverflow position l))
    | .sign s =>
      match pending with
      | none => wordRead? (position + l.size) (some s) modifier ls
      | some _ => some (.error (reject (.repeatedSign s) position l))
    | .unreadable => some (.error (reject .unreadable position l))

/-- A readable literal fits with either sign, so that reading never stops. -/
theorem wordRead?_eq_some (position : Nat) (pending : Option Sign) (modifier : Int)
    (ls : List Lexeme) :
    wordRead? position pending modifier ls = some (read position pending modifier ls) := by
  induction ls generalizing position pending modifier with
  | nil => rw [wordRead?]
  | cons l ls ih =>
    rw [wordRead?, read]
    cases hl : l.token with
    | dice count sides =>
      simp only [ih]
      rfl
    | integer x =>
      obtain ⟨hplus, hminus⟩ := Lexeme.fits_of_token_eq_integer hl
      have hfits : Fits ((pending.getD .plus).apply x) := by
        cases pending.getD .plus with
        | plus => simpa using hplus
        | minus => simpa using hminus
      simp only [Word.checked_of_fits hfits, Option.bind_some, ih]
      cases Word.checked (modifier + (pending.getD .plus).apply x) with
      | none => rfl
      | some m => rfl
    | sign s =>
      cases pending with
      | none => exact ih _ _ _
      | some s' => rfl
    | unreadable => rfl

end Terms

namespace Expression

/-- Reads a notation in words. All arithmetic of the bounds is checked. -/
def wordParse? (s : String) : Option (Except Rejection Expression) :=
  (Terms.wordRead? 0 none 0 (Lexeme.cut (Text.compact s.toList))).map
    fun r => r.bind (ofTerms (Lexeme.utf8Size (Text.compact s.toList)))

theorem wordParse?_eq_some (s : String) : wordParse? s = some (parse s) := by
  rw [wordParse?, Terms.wordRead?_eq_some]
  rfl

end Expression

/-! ### Rolling -/

namespace Throw

/-- The signed face of a die in words: one is added to the integer part of the product, and the sign
is put on the face, both without a check. -/
def wordFace? (t : Throw) : Option Int := do
  let n ← Word.checked ((t.sample.value.times t.die.sides).floor + 1)
  Word.checked (t.die.sign.apply (max 1 (min n t.die.sides.toNat)))

/-- A throw whose rounded product is below `2 ^ 63`, or no number. -/
def InReach (t : Throw) : Prop := (t.sample.value.times t.die.sides).Below63

instance (t : Throw) : Decidable t.InReach :=
  inferInstanceAs (Decidable (Sample.Value.Below63 _))

theorem wordFace?_eq_some {t : Throw} (h : t.InReach) : t.wordFace? = some t.signedFace := by
  rw [wordFace?, Word.checked_of_fits (Sample.Value.fits_floor_add_one h)]
  exact Word.checked_of_fits t.shows_signedFace.fits

/-- The face of a throw in words exists only for a product in reach. -/
theorem wordFace?_eq_some_iff {t : Throw} {x : Int} :
    t.wordFace? = some x ↔ t.InReach ∧ x = t.signedFace := by
  constructor
  · intro h
    have hreach : t.InReach := by
      obtain ⟨n, hn, -⟩ := Option.bind_eq_some_iff.mp h
      exact Sample.Value.below63_of_fits_floor_add_one (Word.checked_eq_some.mp hn).1
    rw [wordFace?_eq_some hreach] at h
    exact ⟨hreach, (Option.some.inj h).symm⟩
  · rintro ⟨hreach, rfl⟩
    exact wordFace?_eq_some hreach

theorem mapM_wordFace?_eq_some_iff {throws : List Throw} {faces : List Int} :
    throws.mapM wordFace? = some faces ↔
      (∀ t ∈ throws, t.InReach) ∧ faces = throws.map signedFace := by
  induction throws generalizing faces with
  | nil => simp [eq_comm]
  | cons t throws ih =>
    simp only [List.mapM_cons, Option.bind_eq_bind, Option.bind_eq_some_iff, Option.pure_def,
      Option.some.injEq, wordFace?_eq_some_iff, ih, List.forall_mem_cons, List.map_cons]
    constructor
    · rintro ⟨x, ⟨hx, rfl⟩, xs, ⟨hxs, rfl⟩, rfl⟩
      exact ⟨⟨hx, hxs⟩, rfl⟩
    · rintro ⟨⟨hx, hxs⟩, rfl⟩
      exact ⟨_, ⟨hx, rfl⟩, _, ⟨hxs, rfl⟩, rfl⟩

theorem mapM_wordFace? {throws : List Throw} (h : ∀ t ∈ throws, t.InReach) :
    throws.mapM wordFace? = some (throws.map signedFace) :=
  mapM_wordFace?_eq_some_iff.mpr ⟨h, rfl⟩

end Throw

/-- The total of some faces and a modifier in words: the faces are added to `0` one after another,
then the modifier, all without a check. -/
def Roll.wordTotal? (faces : List Int) (modifier : Int) : Option Int := do
  let sum ← faces.foldlM (fun sum x => Word.checked (sum + x)) 0
  Word.checked (sum + modifier)

theorem Roll.wordTotal?_eq_some_iff {faces : List Int} {modifier total : Int} :
    wordTotal? faces modifier = some total ↔
      RunningFits 0 faces ∧ Fits (faces.sum + modifier) ∧ total = faces.sum + modifier := by
  rw [wordTotal?, Option.bind_eq_bind, Option.bind_eq_some_iff]
  constructor
  · rintro ⟨sum, hsum, htotal⟩
    obtain ⟨hfaces, rfl⟩ := (Word.foldlM_checked_eq_some_iff Word.fits_zero).mp hsum
    rw [Int.zero_add, Word.checked_eq_some] at htotal
    exact ⟨hfaces, htotal.1, htotal.2.symm⟩
  · rintro ⟨hfaces, hfits, rfl⟩
    refine ⟨faces.sum, ?_, Word.checked_of_fits hfits⟩
    exact (Word.foldlM_checked_eq_some_iff Word.fits_zero).mpr ⟨hfaces, (Int.zero_add _).symm⟩

theorem Roll.wordTotal?_eq_some {faces : List Int} {modifier : Int} (hfaces : RunningFits 0 faces)
    (hsum : Fits (faces.sum + modifier)) :
    wordTotal? faces modifier = some (faces.sum + modifier) :=
  wordTotal?_eq_some_iff.mpr ⟨hfaces, hsum, rfl⟩

namespace Expression

variable {σ : Type} [Source σ]

/-- The roll of an expression in words: the signed faces and the total. -/
def wordRoll? (e : Expression) (source : σ) : Option (List Int × Int) := do
  let faces ← (throwAll e.dice source).1.mapM Throw.wordFace?
  let total ← Roll.wordTotal? faces e.modifier
  return (faces, total)

theorem faces_roll (e : Expression) (source : σ) :
    (e.roll source).1.value.faces = (throwAll e.dice source).1.map Throw.signedFace := rfl

theorem modifier_roll (e : Expression) (source : σ) :
    (e.roll source).1.value.modifier = e.modifier := rfl

/-- A roll in words does not stop exactly when all products are in reach, every sum of the first
faces fits and so does the total; and then it has the faces and the total of the roll. -/
theorem wordRoll?_eq_some_iff {e : Expression} {source : σ} {r : List Int × Int} :
    e.wordRoll? source = some r ↔
      (∀ t ∈ (throwAll e.dice source).1, t.InReach) ∧
      RunningFits 0 (e.roll source).1.value.faces ∧
      Fits ((e.roll source).1.value.faces.sum + e.modifier) ∧
      r = ((e.roll source).1.value.faces, (e.roll source).1.value.total) := by
  simp only [wordRoll?, Option.bind_eq_bind, Option.bind_eq_some_iff, Option.pure_def,
    Option.some.injEq, Throw.mapM_wordFace?_eq_some_iff, Roll.wordTotal?_eq_some_iff,
    Roll.total_eq, faces_roll, modifier_roll]
  constructor
  · rintro ⟨faces, ⟨hreach, rfl⟩, total, ⟨hfaces, hfits, rfl⟩, rfl⟩
    exact ⟨hreach, hfaces, hfits, rfl⟩
  · rintro ⟨hreach, hfaces, hfits, rfl⟩
    exact ⟨_, ⟨hreach, rfl⟩, _, ⟨hfaces, hfits, rfl⟩, rfl⟩

theorem totalsFit_of_parse {s : String} {e : Expression} (h : parse s = .ok e) :
    TotalsFit e.groups e.modifier :=
  (parseCompact_eq_ok_iff.mp h).2.2.2.2

/-- **Rolling an accepted notation never overflows.** Reading in words never stops, and the checked
bounds of groups exist exactly when every integer on their way fits. For an accepted notation and
samples whose products are below `2 ^ 63`, each sum of the first faces and the total fit, so that
the roll in words does not stop and has the exact total, which lies between the checked bounds. -/
theorem roll_fits_of_parse (s : String) :
    wordParse? s = some (parse s) ∧
    (∀ groups modifier, (totalBounds groups modifier).isSome ↔ TotalsFit groups modifier) ∧
    ∀ (e : Expression) (source : σ), parse s = .ok e →
      (∀ t ∈ (throwAll e.dice source).1, t.InReach) →
      RunningFits 0 (e.roll source).1.value.faces ∧
      Fits ((e.roll source).1.value.faces.sum + e.modifier) ∧
      e.wordRoll? source = some ((e.roll source).1.value.faces, (e.roll source).1.value.total) ∧
      (e.roll source).1.value.total = (e.roll source).1.value.faces.sum + e.modifier ∧
      ∃ b, totalBounds e.groups e.modifier = some b ∧ b.low ≤ (e.roll source).1.value.total ∧
        (e.roll source).1.value.total ≤ b.high := by
  refine ⟨wordParse?_eq_some s, fun groups modifier => ?_, fun e source hparse hreach => ?_⟩
  · rw [← Option.ne_none_iff_isSome, ne_eq, totalBounds_eq_none_iff, not_not]
  have hfit := totalsFit_of_parse hparse
  have hdice : (throwAll e.dice source).1.map Throw.die = e.groups.flatMap Group.dice :=
    map_die_throwAll e.dice source
  have hlow := low_le_sum_signedFace hdice
  have hhigh := sum_signedFace_le_high hdice
  have hfaces := hfit.runningFits_signedFace hdice
  have hchoice : FaceChoice (e.groups.flatMap Group.dice)
      ((throwAll e.dice source).1.map Throw.signedFace) := hdice ▸ faceChoice_throws _
  have htotal := hchoice.fits_total hfit.low_total hfit.high_total
  rw [Roll.total_eq, faces_roll, modifier_roll]
  refine ⟨hfaces, htotal, ?_, rfl, _, totalBounds_eq_some_iff.mpr ⟨hfit, rfl⟩, ?_, ?_⟩
  · rw [wordRoll?, Throw.mapM_wordFace? hreach]
    simp [Roll.wordTotal?_eq_some hfaces htotal]
  · exact Int.add_le_add_right hlow _
  · exact Int.add_le_add_right hhigh _

/-- The sides of a cube. -/
def sixSides : Quantity := ⟨6, by decide, by decide⟩

/-- The sides of a tetrahedron. -/
def fourSides : Quantity := ⟨4, by decide, by decide⟩

/-- One die that is added and one that is subtracted, with a modifier for which the greatest total
is the greatest word. -/
def reachingGreatest : Expression where
  groups := [⟨.one, ⟨sixSides, .plus⟩⟩, ⟨.one, ⟨fourSides, .minus⟩⟩]
  modifier := 9223372036854775802
  groups_ne_nil := by decide
  modifier_fits := by decide

/-- The greatest sample below one, then zero. -/
def extremeSamples : Cycle := ⟨#[⟨0x3fefffffffffffff⟩, ⟨0⟩], 0, by decide⟩

theorem roll_fits_reachingGreatest :
    parse "d6 - d4 + 9223372036854775802" = .ok reachingGreatest ∧
    (∀ t ∈ (throwAll reachingGreatest.dice extremeSamples).1, t.InReach) ∧
    (reachingGreatest.roll extremeSamples).1.value.total = Word.greatest ∧
    RunningFits 0 (reachingGreatest.roll extremeSamples).1.value.faces ∧
    reachingGreatest.wordRoll? extremeSamples =
      some ((reachingGreatest.roll extremeSamples).1.value.faces, Word.greatest) := by
  have hparse : parse "d6 - d4 + 9223372036854775802" = .ok reachingGreatest := by cbv
  have hreach : ∀ t ∈ (throwAll reachingGreatest.dice extremeSamples).1, t.InReach := by
    decide +kernel
  have htotal : (reachingGreatest.roll extremeSamples).1.value.total = Word.greatest := by
    decide +kernel
  obtain ⟨-, -, h⟩ := roll_fits_of_parse (σ := Cycle) "d6 - d4 + 9223372036854775802"
  obtain ⟨hfaces, -, hroll, -⟩ := h reachingGreatest extremeSamples hparse hreach
  exact ⟨hparse, hreach, htotal, hfaces, htotal ▸ hroll⟩

end Expression

end DiceSum
