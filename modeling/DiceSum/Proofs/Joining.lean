import DiceSum.Proofs.Overflow
import DiceSum.Proofs.RowOutcome

/-!
# Two notations in a row

A notation that starts with a sign can be written behind another one. The sign keeps the last
literal of the first notation from being prolonged, so that the items of the whole are those of the
two parts. The groups stand in a row and the modifiers are added. Both parts are accepted by
themselves, but the whole need not be: the integers of the second part are added to the modifier of
the first, and the groups of the second to the totals of the first.

## Main results

* `DiceSum.Item.isChain_append` — items behind others, if the first of them has a sign.
* `DiceSum.Expression.parse_append_of_sign` — the outcome for two accepted notations in a row.
-/

namespace DiceSum

open Word (Fits RunningFits)

/-! ### Items that start with a sign -/

theorem Numeral.head?_chars_append_ne (n : Numeral) (w : List Char) (s : Sign) :
    (n.chars ++ w).head? ≠ some s.char := by
  obtain ⟨c, v, hcv⟩ := List.exists_cons_of_ne_nil n.ne_nil
  have hdigit : c.isDigit = true := n.digits c (hcv ▸ List.mem_cons_self)
  rw [hcv, List.cons_append, List.head?_cons, ne_eq, Option.some.injEq]
  rintro rfl
  rw [Lexeme.isDigit_char] at hdigit
  cases hdigit

/-- A literal starts with a digit or the letter `d`. -/
theorem Literal.head?_chars_append_ne (l : Literal) (w : List Char) (s : Sign) :
    (l.chars ++ w).head? ≠ some s.char := by
  obtain ⟨_ | count, sides⟩ | value := l
  · exact fun h => Lexeme.char_ne_d s (Option.some.inj h).symm
  · rw [chars, List.append_assoc]
    exact count.head?_chars_append_ne _ s
  · exact value.head?_chars_append_ne w s

namespace Item

/-- If the text of a row of items starts with a sign, the first item has one. -/
theorem exists_sign_of_head? {items : List Item} {s : Sign}
    (h : (items.flatMap chars).head? = some s.char) : ∀ j ∈ items.head?, ∃ s, j.sign = some s := by
  cases items with
  | nil => exact fun j hj => nomatch hj
  | cons i items =>
    intro j hj
    cases hj
    obtain ⟨_ | s', l⟩ := i
    · exact absurd h (l.head?_chars_append_ne (items.flatMap chars) s)
    · exact ⟨s', rfl⟩

theorem isChain_append {items items' : List Item} (h : items.IsChain Follows)
    (h' : items'.IsChain Follows) (hsign : ∀ j ∈ items'.head?, ∃ s, j.sign = some s) :
    (items ++ items').IsChain Follows := by
  refine List.isChain_append.mpr ⟨h, h', fun i _ j hj => ?_⟩
  obtain ⟨s, hs⟩ := hsign j hj
  obtain ⟨sign, l⟩ := j
  cases hs
  exact .signed i s l

end Item

/-! ### The outcome -/

namespace Expression

section Items

variable {items₁ items₂ front : List Item} {i : Item}
  (hchain : (items₁ ++ items₂).IsChain Item.Follows)
  (hrange : ∀ i ∈ items₁ ++ items₂, i.literal.InRange)
  (hflats : RunningFits 0 (items₁.filterMap Item.flat?))

include hchain hrange hflats

theorem parseCompact_append_of_runningFits
    (h : RunningFits (items₁.filterMap Item.flat?).sum (items₂.filterMap Item.flat?)) :
    parseCompact ((items₁ ++ items₂).flatMap Item.chars) =
      ofTerms (Lexeme.utf8Size ((items₁ ++ items₂).flatMap Item.chars))
        ⟨items₁.filterMap Item.group? ++ items₂.filterMap Item.group?,
          (items₁.filterMap Item.flat?).sum + (items₂.filterMap Item.flat?).sum⟩ := by
  rw [parseCompact_of_runningFits hchain hrange, List.filterMap_append, List.filterMap_append,
    List.sum_append]
  rw [List.filterMap_append, Word.runningFits_append, Int.zero_add]
  exact ⟨hflats, h⟩

theorem parseCompact_append_of_firstOverflow
    (h : Item.FirstOverflow (items₁.filterMap Item.flat?).sum items₂ front i) :
    parseCompact ((items₁ ++ items₂).flatMap Item.chars) =
      .error ⟨.modifierOverflow, Lexeme.utf8Size (items₁.flatMap Item.chars) +
        Lexeme.utf8Size (Item.textBefore front i), String.ofList i.literal.chars⟩ := by
  rw [← Int.zero_add (List.sum _)] at h
  rw [parseCompact_of_firstOverflow hchain hrange (h.prepend hflats), Item.textBefore_append,
    Lexeme.utf8Size_append]

end Items

variable {s₁ s₂ : String} {e₁ e₂ : Expression}

/-- Reading of an accepted notation goes on with the items of the one behind it. -/
theorem exists_items_behind (h₁ : parse s₁ = .ok e₁) (h₂ : parse s₂ = .ok e₂)
    (hsign : ∃ s : Sign, (Text.compact s₂.toList).head? = some s.char) :
    ∃ items, Spells items (Text.compact s₂.toList) ∧
      (items.filterMap Item.flat?).sum = e₂.modifier ∧
      (RunningFits e₁.modifier (items.filterMap Item.flat?) → parse (s₁ ++ s₂) =
        ofTerms (Lexeme.utf8Size (Text.compact (s₁ ++ s₂).toList))
          ⟨e₁.groups ++ e₂.groups, e₁.modifier + e₂.modifier⟩) ∧
      ∀ front i, Item.FirstOverflow e₁.modifier items front i → parse (s₁ ++ s₂) =
        .error ⟨.modifierOverflow, Lexeme.utf8Size (Text.compact s₁.toList) +
          Lexeme.utf8Size (Item.textBefore front i), String.ofList i.literal.chars⟩ := by
  obtain ⟨items₁, hspells₁, hitems₁, hgroups₁, hmodifier₁⟩ := parseCompact_eq_ok_iff_spells.mp h₁
  obtain ⟨items₂, hspells₂, hitems₂, hgroups₂, hmodifier₂⟩ := parseCompact_eq_ok_iff_spells.mp h₂
  have htext : Text.compact (s₁ ++ s₂).toList = (items₁ ++ items₂).flatMap Item.chars := by
    rw [String.toList_append, Text.compact_append, List.flatMap_append, hspells₁.text,
      hspells₂.text]
  have hchain : (items₁ ++ items₂).IsChain Item.Follows := by
    obtain ⟨s, hs⟩ := hsign
    rw [← hspells₂.text] at hs
    exact Item.isChain_append hspells₁.chain hspells₂.chain (Item.exists_sign_of_head? hs)
  have hrange : ∀ i ∈ items₁ ++ items₂, i.literal.InRange :=
    List.forall_mem_append.mpr ⟨hitems₁.inRange, hitems₂.inRange⟩
  rw [parse, htext, ← hspells₁.text, ← hgroups₁, ← hgroups₂, ← hmodifier₁, ← hmodifier₂]
  exact ⟨items₂, hspells₂, rfl,
    parseCompact_append_of_runningFits hchain hrange hitems₁.flats,
    fun _ _ => parseCompact_append_of_firstOverflow hchain hrange hitems₁.flats⟩

/-- **Two accepted notations in a row**, of which the second starts with a sign. The whole is
accepted exactly when the modifier of the first and the first integers of the second have sums that
fit, and the groups and the modifiers together have checked bounds; it is then read as these groups
and the sum of the modifiers. It is rejected either for the first integer of the second part that
leaves the range, which is found where it stands in that part, behind the first one, or at the end
for its totals. -/
theorem parse_append_of_sign (h₁ : parse s₁ = .ok e₁) (h₂ : parse s₂ = .ok e₂)
    (hsign : ∃ s : Sign, (Text.compact s₂.toList).head? = some s.char) :
    ∃ items, Spells items (Text.compact s₂.toList) ∧
      ((∃ e, parse (s₁ ++ s₂) = .ok e) ↔
        RunningFits e₁.modifier (items.filterMap Item.flat?) ∧
          ∃ b, totalBounds (e₁.groups ++ e₂.groups) (e₁.modifier + e₂.modifier) = some b) ∧
      (∀ e, parse (s₁ ++ s₂) = .ok e →
        e.groups = e₁.groups ++ e₂.groups ∧ e.modifier = e₁.modifier + e₂.modifier) ∧
      ∀ r, parse (s₁ ++ s₂) = .error r ↔
        (∃ front i, Item.FirstOverflow e₁.modifier items front i ∧
          r = ⟨.modifierOverflow, Lexeme.utf8Size (Text.compact s₁.toList) +
            Lexeme.utf8Size (Item.textBefore front i), String.ofList i.literal.chars⟩) ∨
        RunningFits e₁.modifier (items.filterMap Item.flat?) ∧
          totalBounds (e₁.groups ++ e₂.groups) (e₁.modifier + e₂.modifier) = none ∧
          r = ⟨.totalOverflow, Lexeme.utf8Size (Text.compact (s₁ ++ s₂).toList), ""⟩ := by
  obtain ⟨items, hspells, hsum, hrun, hover⟩ := exists_items_behind h₁ h₂ hsign
  refine ⟨items, hspells, ?_⟩
  by_cases hfits : RunningFits e₁.modifier (items.filterMap Item.flat?)
  · have hno (front i) : ¬ Item.FirstOverflow e₁.modifier items front i :=
      fun hfirst => hfirst.not_runningFits_row hfits
    have hparts := ofTerms_parts (Lexeme.utf8Size (Text.compact (s₁ ++ s₂).toList))
      ⟨e₁.groups ++ e₂.groups, e₁.modifier + e₂.modifier,
        List.append_ne_nil_of_left_ne_nil e₁.groups_ne_nil _, hsum ▸ hfits.fits_sum⟩
    rw [hrun hfits, hparts]
    cases totalBounds (e₁.groups ++ e₂.groups) (e₁.modifier + e₂.modifier) with
    | none => simp [hfits, hno, eq_comm]
    | some b => simp [hfits, hno]
  · obtain ⟨front, i, hfirst⟩ := Item.exists_firstOverflow e₁.modifier_fits hfits
    rw [hover front i hfirst]
    refine ⟨iff_of_false (by simp) fun h => hfits h.1, by simp, fun r => ⟨?_, ?_⟩⟩
    · rintro ⟨⟩
      exact .inl ⟨front, i, hfirst, rfl⟩
    · rintro (⟨front', i', hfirst', rfl⟩ | ⟨h, -⟩)
      · obtain ⟨rfl, rfl⟩ := hfirst.eq hfirst'
        rfl
      · exact absurd h hfits

/-- A die with a modifier that is almost the greatest word. -/
def nearGreatest : Expression where
  groups := [⟨.one, ⟨sixSides, .plus⟩⟩]
  modifier := 9223372036854775800
  groups_ne_nil := by decide
  modifier_fits := by decide

/-- A die that is subtracted, with a small modifier. -/
def oneTaken : Expression where
  groups := [⟨.one, ⟨fourSides, .minus⟩⟩]
  modifier := 2
  groups_ne_nil := by decide
  modifier_fits := by decide

/-- Two notations with one meaning. Behind the same notation one is accepted, as the sum just
reaches the greatest word on its way, and the other is rejected. -/
theorem parse_append_of_sign_nearGreatest :
    parse "d6 + 9223372036854775800" = .ok nearGreatest ∧
    parse "- d4 - 10 + 17 - 5" = .ok oneTaken ∧
    (∃ e, parse ("d6 + 9223372036854775800" ++ "- d4 - 10 + 17 - 5") = .ok e ∧
      e.groups = nearGreatest.groups ++ oneTaken.groups ∧ e.modifier = 9223372036854775802) ∧
    parse "- d4 - 10 + 18 - 6" = .ok oneTaken ∧
    parse ("d6 + 9223372036854775800" ++ "- d4 - 10 + 18 - 6") =
      .error ⟨.modifierOverflow, 29, "18"⟩ ∧
    ∃ items, Spells items "-d4-10+18-6".toList ∧
      ¬ RunningFits nearGreatest.modifier (items.filterMap Item.flat?) := by
  have hfront : parse "d6 + 9223372036854775800" = .ok nearGreatest := by cbv
  have hreach : parse "- d4 - 10 + 17 - 5" = .ok oneTaken := by cbv
  have hleave : parse "- d4 - 10 + 18 - 6" = .ok oneTaken := by cbv
  obtain ⟨e, he⟩ : ∃ e, parse ("d6 + 9223372036854775800" ++ "- d4 - 10 + 17 - 5") = .ok e :=
    ⟨_, by cbv⟩
  have hwhole : parse ("d6 + 9223372036854775800" ++ "- d4 - 10 + 18 - 6") =
      .error ⟨.modifierOverflow, 29, "18"⟩ := by cbv
  have htext : Text.compact "- d4 - 10 + 18 - 6".toList = "-d4-10+18-6".toList := by decide
  obtain ⟨-, -, -, hmeaning, -⟩ := parse_append_of_sign hfront hreach ⟨.minus, by decide⟩
  obtain ⟨items, hspells, -, -, herror⟩ := parse_append_of_sign hfront hleave ⟨.minus, by decide⟩
  rw [htext] at hspells
  refine ⟨hfront, hreach, ⟨e, he, hmeaning e he⟩, hleave, hwhole, items, hspells, ?_⟩
  rcases (herror _).mp hwhole with ⟨front, i, hfirst, -⟩ | ⟨-, -, hr⟩
  · exact hfirst.not_runningFits_row
  · cases hr

end Expression

end DiceSum
