import DiceSum.Proofs.DrawOrder
import DiceSum.Proofs.Settled

/-!
# The log of a roll

The log of an accepted notation has one entry for each die, in the order of the draws, and one more
for the finished roll; a rejected notation leaves only the entry of its rejection. An entry of a die
shows the face without its sign. The signs of the groups are in the expression, so that the signed
faces and the total of a roll can be told from its log and its expression. This does not depend on
what an overflow comes to, as long as the program goes on: an entry and the signed face that it
belongs to are made of one and the same face.

## Main definitions

* `DiceSum.Event.faces` — the faces that a log shows.
* `DiceSum.Expression.signs` — the signs of the dice of an expression, group after group.
* `DiceSum.Expression.IsLog` — the log of a roll with some signed faces and a total.

## Main results

* `DiceSum.FaceChoice.zipWith_signs` — signed faces told from their magnitudes.
* `DiceSum.Expression.isLog_of_settledRoll?` — the log of a roll with unchecked operations.
* `DiceSum.rollNotation_of_ok`, `DiceSum.rollNotation_of_error` — the roll of a notation.
* `DiceSum.rollNotation_log` — the log of a notation.
-/

namespace DiceSum

/-! ### What a log shows -/

namespace Event

/-- The face in an entry of a die. -/
def face? : Event → Option Int
  | thrown _ _ face => some face
  | _ => none

/-- The faces that a log shows, in order. -/
def faces (events : List Event) : List Int := events.filterMap face?

theorem faces_concat_evaluated (events : List Event) (text : String) (total : Int) :
    faces (events ++ [.evaluated text total]) = faces events := by
  rw [faces, List.filterMap_append]
  exact List.append_nil _

end Event

/-- The signs of the dice of an expression: for each group its sign, as many times as it has
dice. -/
def Expression.signs (e : Expression) : List Sign :=
  e.groups.flatMap fun g => List.replicate g.count.toNat g.die.sign

theorem Expression.map_sign_dice (e : Expression) : e.dice.map Die.sign = e.signs := by
  rw [dice, List.map_flatMap, signs]
  simp only [Group.dice, List.map_replicate]

/-- Signed faces are their magnitudes with the signs of the dice put on. -/
theorem FaceChoice.zipWith_signs {dice : List Die} {faces : List Int} (h : FaceChoice dice faces) :
    List.zipWith Sign.apply (dice.map Die.sign) (faces.map fun x => (x.natAbs : Int)) = faces := by
  induction h with
  | nil => rfl
  | cons hx _ ih =>
    rw [List.map_cons, List.map_cons, List.zipWith_cons_cons, ih, ← (Die.shows_iff.mp hx).2.2]

/-! ### Entries of throws -/

namespace Throw

variable {throws : List Throw} {faces : List Int}

theorem length_entries (h : throws.length = faces.length) :
    (entries throws faces).length = faces.length := by
  rw [entries, List.length_map, List.length_zip, h, Nat.min_self]

theorem levels_entries (h : throws.length = faces.length) :
    (entries throws faces).map Event.level = List.replicate faces.length .trace := by
  rw [← length_entries h, entries, List.length_map, List.map_map]
  exact List.map_eq_replicate_iff.mpr fun p _ => rfl

theorem faces_entries (h : throws.length = faces.length) :
    Event.faces (entries throws faces) = faces.map fun x => (x.natAbs : Int) := by
  rw [Event.faces, entries, List.filterMap_map]
  calc List.filterMap (Event.face? ∘ fun p : Throw × Int => p.1.entry p.2) (throws.zip faces)
      = ((throws.zip faces).map Prod.snd).map fun x => (x.natAbs : Int) := by
        rw [List.map_map, ← List.filterMap_eq_map]
        rfl
    _ = faces.map fun x => (x.natAbs : Int) := by rw [List.map_snd_zip h.ge]

theorem getElem?_entries {k : Nat} {t : Throw} {x : Int} (ht : throws[k]? = some t)
    (hx : faces[k]? = some x) : (entries throws faces)[k]? = some (t.entry x) := by
  have hzip : (throws.zip faces)[k]? = some (t, x) := List.getElem?_zip_eq_some.mpr ⟨ht, hx⟩
  rw [entries, List.getElem?_map, hzip, Option.map_some]

end Throw

/-! ### The log of an expression -/

variable {σ : Type} [Source σ] {s : String} {e : Expression}

namespace Expression

/-- The log of a roll of an expression that showed these signed faces and had this total. -/
structure IsLog (e : Expression) (source : σ) (faces : List Int) (total : Int)
    (events : List Event) : Prop where
  /-- One entry for each die, and then one for the roll. -/
  levels : events.map Event.level = List.replicate e.diceCount .trace ++ [.debug]
  /-- Entry number `k` shows sample number `k`, the sides of the group of die number `k` and the
  magnitude of signed face number `k`. -/
  thrown : ∀ k < e.diceCount, ∃ i g x, BelongsTo e.groups k i ∧ e.groups[i]? = some g ∧
    faces[k]? = some x ∧
    events[k]? = some (.thrown (Source.sample source k) g.die.sides x.natAbs)
  evaluated : events[e.diceCount]? = some (.evaluated e.text total)
  faces_eq : faces = List.zipWith Sign.apply e.signs (Event.faces events)
  total_eq : total = (List.zipWith Sign.apply e.signs (Event.faces events)).sum + e.modifier

/-- Throws that show faces of the dice, and the exact total, are logged as they should be. -/
theorem isLog_of_faceChoice {faces : List Int} (h : FaceChoice e.dice faces) (source : σ) :
    e.IsLog source faces (faces.sum + e.modifier)
      (Throw.entries (throwAll e.dice source).1 faces ++
        [.evaluated e.text (faces.sum + e.modifier)]) := by
  have hlength : faces.length = e.diceCount := h.length_eq ▸ e.length_dice
  have hthrows : (throwAll e.dice source).1.length = faces.length := by
    rw [length_throwAll, h.length_eq]
  have hentries := Throw.length_entries hthrows
  have htold : List.zipWith Sign.apply e.signs (Event.faces
      (Throw.entries (throwAll e.dice source).1 faces ++
        [.evaluated e.text (faces.sum + e.modifier)])) = faces := by
    rw [Event.faces_concat_evaluated, Throw.faces_entries hthrows, ← map_sign_dice,
      h.zipWith_signs]
  constructor
  case levels =>
    rw [List.map_append, Throw.levels_entries hthrows, hlength]
    rfl
  case thrown =>
    intro k hk
    have hdice : k < e.dice.length := e.length_dice ▸ hk
    obtain ⟨i, hi, -⟩ := existsUnique_belongsTo hdice
    obtain ⟨g, hg⟩ := hi.exists_group
    have hx : faces[k]? = some faces[k] := List.getElem?_eq_getElem (hlength ▸ hk)
    refine ⟨i, g, faces[k], hi, hg, hx, ?_⟩
    rw [List.getElem?_append_left (by omega),
      Throw.getElem?_entries (getElem?_throws source hi hg) hx]
    rfl
  case evaluated => rw [← hlength, ← hentries, List.getElem?_concat_length]
  case faces_eq => exact htold.symm
  case total_eq => rw [htold]

/-- A roll with unchecked operations leaves its log, whatever an overflow comes to. -/
theorem isLog_of_settledRoll? {overflow : Int → Option Int} {source : σ}
    {l : Logged (List Int × Int)} (hfit : TotalsFit e.groups e.modifier)
    (h : e.settledRoll? overflow source = some l) :
    e.IsLog source l.value.1 l.value.2 l.events := by
  rw [settledRoll?_eq hfit] at h
  obtain ⟨shown, hshown, rfl⟩ := Option.map_eq_some_iff.mp h
  rw [(Throw.of_mapM_settle? hshown).2]
  exact isLog_of_faceChoice (faceChoice_of_mapM_settle? hshown) source

end Expression

/-! ### Notations -/

theorem rollNotation_of_error {x : Rejection} (h : Expression.parse s = .error x) (source : σ) :
    rollNotation s source = (⟨.error x, [.rejected x.diagnostic]⟩, source) := by
  rw [rollNotation, readNotation, h]
  rfl

theorem rollNotation_of_ok (h : Expression.parse s = .ok e) (source : σ) :
    rollNotation s source =
      (⟨.ok (e.roll source).1.value, (e.roll source).1.events⟩, (e.roll source).2) := by
  rw [rollNotation, readNotation, h]
  rfl

/-- **The log tells the truth about the roll.** A rejected notation logs its diagnostic and nothing
else, and takes no sample. An accepted one logs one entry for each die and then one for the roll:
entry number `k` shows sample number `k`, the sides of the die and the magnitude of signed face
number `k`, and the last entry shows the written form of the expression and the total. With the
signs of the groups put on, the faces of the log are the signed faces of the roll, and their sum
with the modifier is the total. All this holds of any source and whatever an overflow comes to,
unless it stops the program, which happens only for a product of `2 ^ 63` or more. With all products
in reach, as those of samples below one are, the log is that of the roll with integers, and the
roll in words has the same faces and the same total. -/
theorem rollNotation_log (overflow : Int → Option Int) (s : String) (source : σ) :
    (∀ x, Expression.parse s = .error x →
      settledNotation? overflow s source =
        some (⟨.error x, [.rejected x.diagnostic]⟩, source) ∧
      rollNotation s source = (⟨.error x, [.rejected x.diagnostic]⟩, source) ∧
      (Event.rejected x.diagnostic).level = .debug ∧
      (Event.rejected x.diagnostic).message = "rejected dice notation") ∧
    ∀ e, Expression.parse s = .ok e →
      (∀ l source', settledNotation? overflow s source = some (l, source') →
        source' = Source.after source e.diceCount ∧ ∃ faces total,
          l.value = .ok (faces, total) ∧ e.IsLog source faces total l.events) ∧
      ((settledNotation? overflow s source).isSome ↔
        e.InReach source ∨ (overflow (Word.greatest + 1)).isSome) ∧
      ((e.wordRoll? source).isSome ↔ e.InReach source) ∧
      (e.InReach source → ∃ r events,
        rollNotation s source = (⟨.ok r, events⟩, Source.after source e.diceCount) ∧
        settledNotation? overflow s source =
          some (⟨.ok (r.faces, r.total), events⟩, Source.after source e.diceCount) ∧
        e.wordRoll? source = some (r.faces, r.total) ∧
        e.IsLog source r.faces r.total events) ∧
      ((∀ k < e.diceCount, ∃ q < 1, (Source.sample source k).value.number? = some q) →
        e.InReach source) := by
  refine ⟨fun x hx => ⟨settledNotation?_of_error hx overflow source,
    rollNotation_of_error hx source, rfl, rfl⟩, fun e he => ?_⟩
  have hfit := Expression.totalsFit_of_parse he
  rw [settledNotation?_of_ok he, rollNotation_of_ok he, Option.isSome_map]
  refine ⟨fun l source' h => ?_, Expression.isSome_settledRoll?_iff hfit, ?_, fun hreach => ?_,
    Expression.inReach_of_lt_one⟩
  · obtain ⟨l, hl, heq⟩ := Option.map_eq_some_iff.mp h
    cases heq
    exact ⟨rfl, _, _, rfl, Expression.isLog_of_settledRoll? hfit hl⟩
  · rw [Expression.wordRoll?_eq_map, Option.isSome_map, Expression.isSome_settledRoll?_iff hfit]
    exact or_iff_left Bool.false_ne_true
  · have hroll := Expression.settledRoll?_of_inReach hfit hreach
    refine ⟨(e.roll source).1.value, (e.roll source).1.events, ?_, ?_, ?_, ?_⟩
    · rw [Expression.state_roll]
    · rw [hroll overflow]
      rfl
    · rw [Expression.wordRoll?_eq_map, hroll]
      rfl
    · exact Expression.isLog_of_settledRoll? hfit (hroll overflow)

/-- A source that gives nothing but positive infinity. -/
def infiniteSamples : Cycle := ⟨#[⟨0x7ff0000000000000⟩], 0, by decide⟩

open Expression (reachingGreatest extremeSamples sixSides fourSides) in
theorem rollNotation_log_reachingGreatest :
    Expression.parse "d6 - d4 + 9223372036854775802" = .ok reachingGreatest ∧
    Expression.parse "d6*6" = .error ⟨.unreadable, 2, "*"⟩ ∧
    rollNotation "d6*6" extremeSamples =
      (⟨.error ⟨.unreadable, 2, "*"⟩,
        [.rejected "error at position 2 (\"*\"): not a dice term, integer or sign"]⟩,
        extremeSamples) ∧
    (∃ r events, rollNotation "d6 - d4 + 9223372036854775802" extremeSamples =
        (⟨.ok r, events⟩, Source.after extremeSamples 2) ∧
      r.faces = [6, -1] ∧
      events[0]? = some (.thrown (Source.sample extremeSamples 0) sixSides 6) ∧
      events[1]? = some (.thrown (Source.sample extremeSamples 1) fourSides 1) ∧
      events[2]? = some (.evaluated "1d6-1d4+9223372036854775802" Word.greatest)) ∧
    settledNotation? (fun _ => none) "d6 - d4 + 9223372036854775802" infiniteSamples = none ∧
    ∃ l, settledNotation? (fun x => some (x - 2 ^ 64)) "d6 - d4 + 9223372036854775802"
      infiniteSamples = some (l, Source.after infiniteSamples 2) := by
  have hok : Expression.parse "d6 - d4 + 9223372036854775802" = .ok reachingGreatest := by cbv
  have hfault : Expression.parse "d6*6" = .error ⟨.unreadable, 2, "*"⟩ := by cbv
  have htext : Rejection.diagnostic ⟨.unreadable, 2, "*"⟩ =
      "error at position 2 (\"*\"): not a dice term, integer or sign" := by decide +kernel
  have hreach : reachingGreatest.InReach extremeSamples := by decide +kernel
  have hword : reachingGreatest.wordRoll? extremeSamples = some ([6, -1], Word.greatest) := by
    decide +kernel
  have hout : ¬ reachingGreatest.InReach infiniteSamples := by decide +kernel
  have hfirst : BelongsTo reachingGreatest.groups 0 0 := by
    simp only [BelongsTo, diceBefore]
    decide
  have hsecond : BelongsTo reachingGreatest.groups 1 1 := by
    simp only [BelongsTo, diceBefore]
    decide
  rw [← htext]
  obtain ⟨hrejected, -⟩ := rollNotation_log (fun _ => none) "d6*6" extremeSamples
  obtain ⟨-, haccepted⟩ :=
    rollNotation_log (fun _ => none) "d6 - d4 + 9223372036854775802" extremeSamples
  obtain ⟨-, hstop⟩ :=
    rollNotation_log (fun _ => none) "d6 - d4 + 9223372036854775802" infiniteSamples
  obtain ⟨-, hwrap⟩ :=
    rollNotation_log (fun x => some (x - 2 ^ 64)) "d6 - d4 + 9223372036854775802" infiniteSamples
  refine ⟨hok, hfault, (hrejected _ hfault).2.1, ?_, ?_, ?_⟩
  · obtain ⟨-, -, -, hroll, -⟩ := haccepted _ hok
    obtain ⟨r, events, hroll, -, hsame, hlog⟩ := hroll hreach
    obtain ⟨hfaces, htotal⟩ := Prod.mk.inj (Option.some.inj (hword.symm.trans hsame))
    -- the group and the face of a known die are the ones that its entry is about
    have hentry {k i : Nat} {g : Group} {x : Int} (hk : BelongsTo reachingGreatest.groups k i)
        (hg : reachingGreatest.groups[i]? = some g) (hx : [6, -1][k]? = some x) (hlt : k < 2) :
        events[k]? = some (.thrown (Source.sample extremeSamples k) g.die.sides x.natAbs) := by
      obtain ⟨i', g', x', hk', hg', hx', hevent⟩ := hlog.thrown k hlt
      obtain rfl := hk.eq hk'
      obtain rfl := Option.some.inj (hg.symm.trans hg')
      obtain rfl := Option.some.inj (hx.symm.trans (hfaces ▸ hx'))
      exact hevent
    refine ⟨r, events, hroll, hfaces.symm, hentry hfirst rfl rfl (by decide),
      hentry hsecond rfl rfl (by decide), ?_⟩
    exact hlog.evaluated.trans (by rw [← htotal]; decide +kernel)
  · obtain ⟨-, hsome, -⟩ := hstop _ hok
    exact Option.not_isSome_iff_eq_none.mp (hsome.not.mpr (not_or.mpr ⟨hout, Bool.false_ne_true⟩))
  · obtain ⟨hlog, hsome, -⟩ := hwrap _ hok
    obtain ⟨⟨l, source'⟩, hl⟩ := Option.isSome_iff_exists.mp (hsome.mpr (.inr rfl))
    obtain ⟨rfl, -⟩ := hlog l source' hl
    exact ⟨l, hl⟩

end DiceSum
