import DiceSum.Proofs.TotalRange

/-!
# What a row of lexemes comes to

Any row of lexemes, faulty or not, has groups, signed flat terms and perhaps a sign at its end that
no term has used. Reading goes through the lexemes with exactly this tally as its state: a lexeme
is either a fault where it stands or a step of the tally. So a row is read to its end exactly when
no lexeme is a fault after those before it, and otherwise it is rejected for the first that is.

## Main definitions

* `DiceSum.Tally`, `DiceSum.Tally.of` — the tally of a row of lexemes.
* `DiceSum.Tally.Fault` — a lexeme that is a fault after a row with a given tally.
* `DiceSum.Clean` — rows without a fault.
* `DiceSum.Tally.resume` — reading that goes on after a row.

## Main results

* `DiceSum.Tally.resume_cons`, `DiceSum.Tally.resume_append` — one step, and a clean row.
* `DiceSum.Terms.read_eq_ok_iff`, `DiceSum.Terms.read_eq_error_iff` — the two outcomes of a row.
* `DiceSum.Expression.parseCompact_eq_ok_iff` — the accepted notations.
-/

namespace DiceSum

open Word (Fits)

/-- What a row of lexemes comes to: its groups, its signed flat terms, and the sign at its end that
no term has used. -/
structure Tally where
  groups : List Group
  flats : List Int
  pending : Option Sign

namespace Tally

/-- The tally of the empty row. -/
def empty : Tally := ⟨[], [], none⟩

/-- The sign of a term that comes next. -/
def nextSign (t : Tally) : Sign := t.pending.getD .plus

/-- The tally after one more lexeme. -/
def step (t : Tally) (l : Lexeme) : Tally :=
  match l.token with
  | .dice count sides => ⟨t.groups ++ [⟨count, ⟨sides, t.nextSign⟩⟩], t.flats, none⟩
  | .integer x => ⟨t.groups, t.flats ++ [t.nextSign.apply x], none⟩
  | .sign s => ⟨t.groups, t.flats, some s⟩
  | .unreadable => ⟨t.groups, t.flats, none⟩

/-- The tally of a row of lexemes. -/
def of (ls : List Lexeme) : Tally := ls.foldl step empty

@[simp] theorem of_nil : of [] = empty := rfl

@[simp] theorem of_concat (ls : List Lexeme) (l : Lexeme) : of (ls ++ [l]) = (of ls).step l :=
  List.foldl_append

/-- The faults of a lexeme behind a row with tally `t`. -/
inductive Fault (t : Tally) : Lexeme → Rejection.Cause → Prop
  | unreadable {l : Lexeme} (h : l.token = .unreadable) : Fault t l .unreadable
  | repeatedSign {s s' : Sign} (h : t.pending = some s') : Fault t (.sign s) (.repeatedSign s)
  | modifierOverflow {l : Lexeme} {x : Nat} (h : l.token = .integer x)
      (hfits : ¬ Fits (t.flats.sum + t.nextSign.apply x)) : Fault t l .modifierOverflow

end Tally

/-- A row of lexemes none of which is a fault after those before it. -/
def Clean (ls : List Lexeme) : Prop :=
  ∀ front l, front ++ [l] <+: ls → ∀ cause, ¬ (Tally.of front).Fault l cause

theorem clean_nil : Clean [] := fun front l h =>
  absurd (List.prefix_nil.mp h) (List.append_ne_nil_of_right_ne_nil front (List.cons_ne_nil l []))

theorem Clean.of_append {ls ls' : List Lexeme} (h : Clean (ls ++ ls')) : Clean ls :=
  fun front l hinit => h front l (hinit.trans (List.prefix_append ls ls'))

theorem clean_concat {ls : List Lexeme} {l : Lexeme} :
    Clean (ls ++ [l]) ↔ Clean ls ∧ ∀ cause, ¬ (Tally.of ls).Fault l cause := by
  constructor
  · intro h
    exact ⟨h.of_append, h ls l List.prefix_rfl⟩
  · rintro ⟨hls, hl⟩ front l' hinit
    rcases List.prefix_concat_iff.mp hinit with heq | hinit
    · obtain ⟨rfl, hcons⟩ := List.append_inj' heq rfl
      obtain ⟨rfl, -⟩ := List.cons.inj hcons
      exact hl
    · exact hls front l' hinit

/-- A row that is not clean has a first fault. -/
theorem exists_first_fault {ls : List Lexeme} (h : ¬ Clean ls) :
    ∃ front l back cause, ls = front ++ l :: back ∧ Clean front ∧
      (Tally.of front).Fault l cause := by
  induction ls using List.reverseRecOn with
  | nil => exact absurd clean_nil h
  | append_singleton ls l ih =>
    by_cases hls : Clean ls
    · rw [clean_concat] at h
      push Not at h
      obtain ⟨cause, hcause⟩ := h hls
      exact ⟨ls, l, [], cause, rfl, hls, hcause⟩
    · obtain ⟨front, l', back, cause, rfl, hfront, hfault⟩ := ih hls
      exact ⟨front, l', back ++ [l], cause, by simp, hfront, hfault⟩

/-! ### Reading -/

namespace Terms

/-- The terms with more groups in front. -/
def prepend (groups : List Group) (t : Terms) : Terms := { t with groups := groups ++ t.groups }

theorem map_prepend_nil (r : Except Rejection Terms) : r.map (prepend []) = r := by
  cases r <;> rfl

theorem map_prepend_map_cons (groups : List Group) (g : Group) (r : Except Rejection Terms) :
    (r.map (cons g)).map (prepend groups) = r.map (prepend (groups ++ [g])) := by
  cases r with
  | error e => rfl
  | ok t => simp [Except.map, prepend, cons]

end Terms

namespace Tally

open Terms (reject prepend)

variable {t : Tally} {l : Lexeme} {ls : List Lexeme} {position : Nat}

/-- Reading that goes on at byte `position`, behind a row with tally `t`. -/
def resume (t : Tally) (position : Nat) (ls : List Lexeme) : Except Rejection Terms :=
  (Terms.read position t.pending t.flats.sum ls).map (prepend t.groups)

theorem resume_empty (ls : List Lexeme) : empty.resume 0 ls = Terms.read 0 none 0 ls :=
  Terms.map_prepend_nil _

theorem resume_nil (t : Tally) (position : Nat) :
    t.resume position [] =
      match t.pending with
      | none => .ok ⟨t.groups, t.flats.sum⟩
      | some _ => .error ⟨.danglingSign, position, ""⟩ := by
  rw [resume]
  cases t.pending with
  | none => simp [Terms.read, Except.map, prepend]
  | some s => rfl

/-- A lexeme that is no fault is a step of the tally. -/
theorem resume_cons (h : ∀ cause, ¬ t.Fault l cause) :
    t.resume position (l :: ls) = (t.step l).resume (position + l.size) ls := by
  rw [resume, resume, Terms.read, step]
  cases hl : l.token with
  | dice count sides => exact Terms.map_prepend_map_cons _ _ _
  | integer x =>
    have hfits : Fits (t.flats.sum + t.nextSign.apply x) := by
      by_contra hfits
      exact h _ (.modifierOverflow hl hfits)
    have hchecked := Word.checked_of_fits hfits
    rw [nextSign] at hchecked
    simp only [hchecked, nextSign, List.sum_append, List.sum_singleton]
  | sign s =>
    cases hpending : t.pending with
    | none => rfl
    | some s' =>
      rw [Lexeme.token_eq_sign.mp hl] at h
      exact absurd (.repeatedSign hpending) (h _)
  | unreadable => exact absurd (.unreadable hl) (h _)

/-- Reading ends at a fault. -/
theorem resume_cons_of_fault {cause : Rejection.Cause} (h : t.Fault l cause) :
    t.resume position (l :: ls) = .error (reject cause position l) := by
  rw [resume, Terms.read]
  cases h with
  | unreadable hl =>
    rw [hl]
    rfl
  | repeatedSign hpending =>
    rw [Lexeme.token, hpending]
    rfl
  | modifierOverflow hl hfits =>
    rw [hl]
    have hchecked := Word.checked_eq_none.mpr hfits
    rw [nextSign] at hchecked
    simp only [hchecked]
    rfl

/-- A clean row in front takes reading to its tally and to its end. -/
theorem resume_append {front : List Lexeme} (h : Clean front) (back : List Lexeme) :
    Terms.read 0 none 0 (front ++ back) =
      (of front).resume (Lexeme.utf8Size (front.flatMap Lexeme.text)) back := by
  induction front using List.reverseRecOn generalizing back with
  | nil => exact (resume_empty back).symm
  | append_singleton front l ih =>
    obtain ⟨hfront, hl⟩ := clean_concat.mp h
    rw [List.append_assoc, List.singleton_append, ih hfront, resume_cons hl, of_concat]
    simp [Lexeme.size]

end Tally

namespace Terms

variable {ls : List Lexeme}

theorem read_of_clean (h : Clean ls) :
    read 0 none 0 ls = (Tally.of ls).resume (Lexeme.utf8Size (ls.flatMap Lexeme.text)) [] := by
  simpa using Tally.resume_append h []

theorem read_of_fault {front back : List Lexeme} {l : Lexeme} {cause : Rejection.Cause}
    (h : Clean front) (hl : (Tally.of front).Fault l cause) :
    read 0 none 0 (front ++ l :: back) =
      .error (reject cause (Lexeme.utf8Size (front.flatMap Lexeme.text)) l) := by
  rw [Tally.resume_append h, Tally.resume_cons_of_fault hl]

/-- A row of lexemes is read to its end exactly when it is clean and leaves no sign. -/
theorem read_eq_ok_iff {t : Terms} :
    read 0 none 0 ls = .ok t ↔ Clean ls ∧ (Tally.of ls).pending = none ∧
      t = ⟨(Tally.of ls).groups, (Tally.of ls).flats.sum⟩ := by
  by_cases h : Clean ls
  · rw [read_of_clean h, Tally.resume_nil]
    cases (Tally.of ls).pending with
    | none => simp [h, eq_comm]
    | some s => simp
  · obtain ⟨front, l, back, cause, rfl, hfront, hl⟩ := exists_first_fault h
    rw [read_of_fault hfront hl]
    simp [h]

/-- A row of lexemes is rejected for its first fault, or else for a sign at its end. -/
theorem read_eq_error_iff {r : Rejection} :
    read 0 none 0 ls = .error r ↔
      (∃ front l back cause, ls = front ++ l :: back ∧ Clean front ∧
        (Tally.of front).Fault l cause ∧
        r = reject cause (Lexeme.utf8Size (front.flatMap Lexeme.text)) l) ∨
      (Clean ls ∧ (Tally.of ls).pending ≠ none ∧
        r = ⟨.danglingSign, Lexeme.utf8Size (ls.flatMap Lexeme.text), ""⟩) := by
  constructor
  · intro hr
    by_cases h : Clean ls
    · rw [read_of_clean h, Tally.resume_nil] at hr
      cases hpending : (Tally.of ls).pending with
      | none => simp [hpending] at hr
      | some s =>
        simp only [hpending, Except.error.injEq] at hr
        exact Or.inr ⟨h, by simp, hr.symm⟩
    · obtain ⟨front, l, back, cause, rfl, hfront, hl⟩ := exists_first_fault h
      rw [read_of_fault hfront hl] at hr
      exact Or.inl ⟨front, l, back, cause, rfl, hfront, hl, (Except.error.inj hr).symm⟩
  · rintro (⟨front, l, back, cause, rfl, hfront, hl, rfl⟩ | ⟨h, hpending, rfl⟩)
    · exact read_of_fault hfront hl
    · obtain ⟨s, hs⟩ := Option.ne_none_iff_exists'.mp hpending
      rw [read_of_clean h, Tally.resume_nil, hs]

end Terms

/-! ### Whole notations -/

namespace Expression

variable {size : Nat} {t : Terms} {e : Expression} {r : Rejection}

theorem ofTerms_parts (size : Nat) (e : Expression) :
    ofTerms size ⟨e.groups, e.modifier⟩ =
      match totalBounds e.groups e.modifier with
      | none => .error ⟨.totalOverflow, size, ""⟩
      | some _ => .ok e := by
  have hparts : ofParts? e.groups e.modifier = some e := ofParts?_eq_some.mpr ⟨rfl, rfl⟩
  cases hb : totalBounds e.groups e.modifier with
  | none => simp only [ofTerms, hparts, hb]
  | some b => simp only [ofTerms, hparts, hb]

theorem ofTerms_eq_ok_iff :
    ofTerms size t = .ok e ↔ t = ⟨e.groups, e.modifier⟩ ∧ TotalsFit e.groups e.modifier := by
  constructor
  · intro h
    rw [ofTerms] at h
    split at h
    · cases h
    · next e' he =>
      split at h
      · cases h
      · next b hb =>
        cases h
        obtain ⟨hgroups, hmodifier⟩ := ofParts?_eq_some.mp he
        rw [hgroups, hmodifier]
        exact ⟨rfl, (totalBounds_eq_some_iff.mp hb).1⟩
  · rintro ⟨rfl, hfit⟩
    rw [ofTerms_parts, totalBounds_eq_some_iff.mpr ⟨hfit, rfl⟩]

theorem ofTerms_eq_error_iff (hmodifier : Fits t.modifier) :
    ofTerms size t = .error r ↔
      t.groups = [] ∧ r = ⟨.noDice, size, ""⟩ ∨
      t.groups ≠ [] ∧ ¬ TotalsFit t.groups t.modifier ∧ r = ⟨.totalOverflow, size, ""⟩ := by
  by_cases hgroups : t.groups = []
  · simp [ofTerms, ofParts?, hgroups, eq_comm]
  · have ht := ofTerms_parts size ⟨t.groups, t.modifier, hgroups, hmodifier⟩
    simp only at ht
    rw [ht]
    cases hb : totalBounds t.groups t.modifier with
    | none => simp [hgroups, totalBounds_eq_none_iff.mp hb, eq_comm]
    | some b => simp [hgroups, (totalBounds_eq_some_iff.mp hb).1]

variable {w : List Char}

/-- A notation without blanks is accepted exactly when its lexemes have no fault, leave no sign and
come to the parts of the expression, and all its totals fit. -/
theorem parseCompact_eq_ok_iff :
    parseCompact w = .ok e ↔ Clean (Lexeme.cut w) ∧ (Tally.of (Lexeme.cut w)).pending = none ∧
      (Tally.of (Lexeme.cut w)).groups = e.groups ∧
      (Tally.of (Lexeme.cut w)).flats.sum = e.modifier ∧ TotalsFit e.groups e.modifier := by
  rw [parseCompact]
  cases hread : Terms.read 0 none 0 (Lexeme.cut w) with
  | ok t =>
    obtain ⟨hclean, hpending, rfl⟩ := Terms.read_eq_ok_iff.mp hread
    simp [Except.bind, ofTerms_eq_ok_iff, hclean, hpending, and_assoc]
  | error r =>
    simp only [Except.bind, reduceCtorEq, false_iff]
    rintro ⟨hclean, hpending, -⟩
    rw [Terms.read_eq_ok_iff.mpr ⟨hclean, hpending, rfl⟩] at hread
    cases hread

/-- A notation without blanks is rejected for the first fault of its lexemes, or else for a sign at
the end, for the lack of dice or for its totals. -/
theorem parseCompact_eq_error_iff :
    parseCompact w = .error r ↔
      Terms.read 0 none 0 (Lexeme.cut w) = .error r ∨
      Clean (Lexeme.cut w) ∧ (Tally.of (Lexeme.cut w)).pending = none ∧
        ((Tally.of (Lexeme.cut w)).groups = [] ∧ r = ⟨.noDice, Lexeme.utf8Size w, ""⟩ ∨
        (Tally.of (Lexeme.cut w)).groups ≠ [] ∧
          ¬ TotalsFit (Tally.of (Lexeme.cut w)).groups (Tally.of (Lexeme.cut w)).flats.sum ∧
          r = ⟨.totalOverflow, Lexeme.utf8Size w, ""⟩) := by
  rw [parseCompact]
  cases hread : Terms.read 0 none 0 (Lexeme.cut w) with
  | ok t =>
    have hfits := Terms.fits_of_read hread Word.fits_zero
    obtain ⟨hclean, hpending, rfl⟩ := Terms.read_eq_ok_iff.mp hread
    simp [Except.bind, ofTerms_eq_error_iff hfits, hclean, hpending]
  | error r' =>
    simp only [Except.bind, Except.error.injEq]
    refine ⟨Or.inl, fun h => h.elim id ?_⟩
    rintro ⟨hclean, hpending, -⟩
    rw [Terms.read_eq_ok_iff.mpr ⟨hclean, hpending, rfl⟩] at hread
    cases hread

end Expression

end DiceSum
