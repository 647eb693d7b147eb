import DiceSum.Proofs.GreedyCut
import DiceSum.Proofs.Readable
import DiceSum.Proofs.Tally

/-!
# The first fault of a rejected notation

A lexeme is at fault for what it is or for what stands in front of it: a stray character and a
literal out of range always, a sign behind a sign, and an integer that the modifier so far cannot
take. A rejected notation is reported for the first such lexeme, with all its text, and for the
notation as a whole only if there is none.

## Main definitions

* `DiceSum.Violation` — a lexeme at fault behind a row of lexemes.
* `DiceSum.FirstFault` — the report on a rejected text.

## Main results

* `DiceSum.violation_iff_fault` — faults read off the lexemes, and off their tally.
* `DiceSum.Expression.parse_eq_error_iff_firstFault` — a rejected notation and its report.
-/

namespace DiceSum

open Word (Fits)

/-! ### Faults of a lexeme -/

/-- The sign at the end of a row of lexemes, if there is one. -/
def signAtEnd (ls : List Lexeme) : Option Sign :=
  match ls.getLast? with
  | some (.sign s) => some s
  | _ => none

/-- The faults of a lexeme behind the row `front`. -/
inductive Violation (front : List Lexeme) : Lexeme → Rejection.Cause → Prop
  | stray (c : Char) : Violation front (.stray c) .unreadable
  | dice {count sides : List Char}
      (h : ¬ ((count = [] ∨ Quantity.InRange (Text.value count)) ∧
        Quantity.InRange (Text.value sides))) :
      Violation front (.dice count sides) .unreadable
  | integer {digits : List Char} (h : 9223372036854775807 < Text.value digits) :
      Violation front (.integer digits) .unreadable
  | repeatedSign (s : Sign) (h : signAtEnd front ≠ none) :
      Violation front (.sign s) (.repeatedSign s)
  | modifierOverflow {digits : List Char} (hle : Text.value digits ≤ 9223372036854775807)
      (h : ¬ Fits ((Tally.of front).flats.sum +
        ((signAtEnd front).getD .plus).apply (Text.value digits))) :
      Violation front (.integer digits) .modifierOverflow

/-- A row of lexemes none of which is at fault behind those before it. -/
def Faultless (ls : List Lexeme) : Prop :=
  ∀ front l, front ++ [l] <+: ls → ∀ cause, ¬ Violation front l cause

/-- The report on a rejected text `w`: the first lexeme at fault, where it starts, with all its
text; if there is none, a fault of the whole text, at its end. -/
inductive FirstFault (w : List Char) : Rejection → Prop
  | lexeme {front back : List Lexeme} {l : Lexeme} {cause : Rejection.Cause}
      (hcut : Lexeme.cut w = front ++ l :: back) (hfront : Faultless front)
      (hl : Violation front l cause) :
      FirstFault w ⟨cause, Lexeme.utf8Size (front.flatMap Lexeme.text), String.ofList l.text⟩
  | danglingSign (h : Faultless (Lexeme.cut w)) (hsign : ∃ s : Sign, w.getLast? = some s.char) :
      FirstFault w ⟨.danglingSign, Lexeme.utf8Size w, ""⟩
  | noDice (h : Faultless (Lexeme.cut w)) (hsign : ¬ ∃ s : Sign, w.getLast? = some s.char)
      (hdice : ∀ count sides, .dice count sides ∉ Lexeme.cut w) :
      FirstFault w ⟨.noDice, Lexeme.utf8Size w, ""⟩
  | totalOverflow (h : Faultless (Lexeme.cut w)) (hsign : ¬ ∃ s : Sign, w.getLast? = some s.char)
      (hdice : ∃ count sides, .dice count sides ∈ Lexeme.cut w)
      (hbounds : totalBounds (Tally.of (Lexeme.cut w)).groups
        (Tally.of (Lexeme.cut w)).flats.sum = none) :
      FirstFault w ⟨.totalOverflow, Lexeme.utf8Size w, ""⟩

/-! ### Faults of a tally -/

theorem Tally.pending_step {t : Tally} {l : Lexeme} (h : ∀ s, l ≠ .sign s) :
    (t.step l).pending = none := by
  rw [Tally.step]
  split
  · rfl
  · rfl
  · next s hs => exact absurd (Lexeme.token_eq_sign.mp hs) (h s)
  · rfl

theorem Tally.pending_of (ls : List Lexeme) : (Tally.of ls).pending = signAtEnd ls := by
  rcases List.eq_nil_or_concat' ls with rfl | ⟨front, l, rfl⟩
  · rfl
  · rw [Tally.of_concat, signAtEnd, List.getLast?_concat]
    cases l with
    | sign s => rfl
    | dice count sides => exact Tally.pending_step fun s => Lexeme.noConfusion
    | integer digits => exact Tally.pending_step fun s => Lexeme.noConfusion
    | stray c => exact Tally.pending_step fun s => Lexeme.noConfusion

/-- A lexeme is at fault behind a row exactly when it is at fault for the tally of the row. -/
theorem violation_iff_fault {front : List Lexeme} {l : Lexeme} {cause : Rejection.Cause} :
    Violation front l cause ↔ (Tally.of front).Fault l cause := by
  constructor
  · rintro (c | h | h | ⟨s, h⟩ | ⟨hle, h⟩)
    · exact .unreadable rfl
    · exact .unreadable (Lexeme.token_dice_eq_unreadable_iff.mpr h)
    · exact .unreadable (Lexeme.token_integer_eq_unreadable_iff.mpr h)
    · obtain ⟨s', hs'⟩ := Option.ne_none_iff_exists'.mp h
      exact .repeatedSign ((Tally.pending_of front).trans hs')
    · refine .modifierOverflow (Lexeme.token_integer hle) ?_
      rwa [Tally.nextSign, Tally.pending_of]
  · rintro (hl | hpending | ⟨hl, hfits⟩)
    · cases l with
      | dice count sides => exact .dice (Lexeme.token_dice_eq_unreadable_iff.mp hl)
      | integer digits => exact .integer (Lexeme.token_integer_eq_unreadable_iff.mp hl)
      | sign s => cases hl
      | stray c => exact .stray c
    · exact .repeatedSign _ (by simp [← Tally.pending_of, hpending])
    · obtain ⟨digits, rfl, hle, hvalue⟩ := Lexeme.eq_integer_of_token hl
      rw [Tally.nextSign, Tally.pending_of, ← hvalue] at hfits
      exact .modifierOverflow hle hfits

theorem faultless_iff_clean {ls : List Lexeme} : Faultless ls ↔ Clean ls := by
  simp only [Faultless, Clean, violation_iff_fault]

theorem Tally.groups_step_eq_nil_iff {t : Tally} {l : Lexeme} (h : ∀ cause, ¬ t.Fault l cause) :
    (t.step l).groups = [] ↔ t.groups = [] ∧ ∀ count sides, l ≠ .dice count sides := by
  cases l with
  | dice count sides =>
    obtain ⟨q, r, hqr⟩ := Lexeme.exists_token_dice fun hl => h _ (.unreadable hl)
    simp [Tally.step, hqr]
  | integer digits =>
    by_cases hfits : Fits (Text.value digits)
    · simp [Tally.step, Lexeme.token, hfits]
    · simp [Tally.step, Lexeme.token, hfits]
  | sign s => simp [Tally.step, Lexeme.token]
  | stray c => simp [Tally.step, Lexeme.token]

/-- A row without a fault comes to no group exactly when it has no dice literal. -/
theorem Clean.groups_eq_nil_iff {ls : List Lexeme} (h : Clean ls) :
    (Tally.of ls).groups = [] ↔ ∀ count sides, .dice count sides ∉ ls := by
  induction ls using List.reverseRecOn with
  | nil => simp [Tally.empty]
  | append_singleton ls l ih =>
    obtain ⟨hls, hl⟩ := clean_concat.mp h
    rw [Tally.of_concat, Tally.groups_step_eq_nil_iff hl, ih hls]
    simp only [List.mem_append, List.mem_singleton, not_or, forall_and, ne_eq, eq_comm]

/-! ### The sign at the end of a text -/

theorem getLast?_ne_char_of_digits {v : List Char} (hv : Text.Digits v) (s : Sign) :
    v.getLast? ≠ some s.char := by
  intro h
  have hdigit := hv _ (List.mem_of_getLast? h)
  rw [Lexeme.isDigit_char] at hdigit
  cases hdigit

/-- The last character of a lexeme is a sign only if the lexeme is that sign. -/
theorem Lexeme.Formed.getLast?_text_eq_some_iff {l : Lexeme} (h : l.Formed) {s : Sign} :
    l.text.getLast? = some s.char ↔ l = .sign s := by
  cases l with
  | dice count sides =>
    refine iff_of_false ?_ Lexeme.noConfusion
    rw [Lexeme.text, List.append_cons, List.getLast?_append_of_ne_nil _ h.2.2]
    exact getLast?_ne_char_of_digits h.2.1 s
  | integer digits => exact iff_of_false (getLast?_ne_char_of_digits h.1 s) Lexeme.noConfusion
  | sign s' =>
    rw [Lexeme.text, List.getLast?_singleton, Option.some.injEq, Lexeme.sign.injEq]
    exact ⟨fun hs => Option.some.inj (by rw [← Sign.ofChar?_char, hs, Sign.ofChar?_char]),
      congrArg Sign.char⟩
  | stray c =>
    refine iff_of_false (fun hc => ?_) Lexeme.noConfusion
    rw [Lexeme.text, List.getLast?_singleton, Option.some.injEq] at hc
    have hsign := h.2
    rw [hc, Sign.ofChar?_char] at hsign
    cases hsign

/-- The last lexeme of a text is a sign exactly when the last character is. -/
theorem signAtEnd_cut_eq_some_iff {w : List Char} {s : Sign} :
    signAtEnd (Lexeme.cut w) = some s ↔ w.getLast? = some s.char := by
  have htext := Lexeme.flatMap_text_cut w
  have hformed := (Lexeme.greedy_cut w).formed
  rcases List.eq_nil_or_concat' (Lexeme.cut w) with hnil | ⟨front, l, hcut⟩
  · rw [hnil] at htext
    subst htext
    simp [signAtEnd]
  · rw [hcut] at htext hformed ⊢
    have hl := hformed l (List.mem_append_right front List.mem_cons_self)
    rw [← htext, signAtEnd, List.getLast?_concat, List.flatMap_append, List.flatMap_singleton,
      List.getLast?_append_of_ne_nil _ hl.text_ne_nil, hl.getLast?_text_eq_some_iff]
    cases l <;> simp

/-! ### Byte positions -/

theorem utf8ByteSize_ofList (w : List Char) :
    (String.ofList w).utf8ByteSize = Lexeme.utf8Size w := by
  induction w with
  | nil => rfl
  | cons c w ih =>
    rw [← List.singleton_append, String.ofList_append, String.utf8ByteSize_append, ih,
      ← String.singleton_eq_ofList, String.utf8ByteSize_singleton, List.singleton_append,
      Lexeme.utf8Size_cons]

/-- A piece of a text starts at a character boundary and is made of the bytes from there on. -/
theorem isValid_and_extract (pre mid post : List Char) :
    (⟨Lexeme.utf8Size pre⟩ : String.Pos.Raw).IsValid (String.ofList (pre ++ mid ++ post)) ∧
    (String.ofList (pre ++ mid ++ post)).toByteArray.extract (Lexeme.utf8Size pre)
      (Lexeme.utf8Size pre + (String.ofList mid).utf8ByteSize) =
        (String.ofList mid).toByteArray := by
  have hsize : (String.ofList pre).toByteArray.size = Lexeme.utf8Size pre :=
    utf8ByteSize_ofList pre
  rw [List.append_assoc, String.ofList_append]
  constructor
  · refine String.Pos.Raw.IsValid.append_right ?_ _
    exact String.Pos.Raw.isValid_of_eq_rawEndPos (congrArg _ hsize.symm)
  · rw [String.toByteArray_append, ← hsize, ← Nat.add_zero (ByteArray.size _), Nat.add_assoc,
      ByteArray.extract_append_size_add, Nat.zero_add, String.ofList_append,
      String.toByteArray_append]
    exact ByteArray.extract_append_eq_left rfl

/-! ### Rejected texts -/

/-- The text at fault stands in the rejected text, at the position that is reported. -/
theorem FirstFault.exists_split {w : List Char} {r : Rejection} (h : FirstFault w r) :
    ∃ pre post, w = pre ++ r.slice.toList ++ post ∧ r.position = Lexeme.utf8Size pre := by
  cases h with
  | @lexeme front back l cause hcut hfront hl =>
    refine ⟨front.flatMap Lexeme.text, back.flatMap Lexeme.text, ?_, rfl⟩
    rw [← Lexeme.flatMap_text_cut w, hcut, String.toList_ofList]
    simp
  | danglingSign h hsign => exact ⟨w, [], by simp, rfl⟩
  | noDice h hsign hdice => exact ⟨w, [], by simp, rfl⟩
  | totalOverflow h hsign hdice hbounds => exact ⟨w, [], by simp, rfl⟩

namespace Expression

variable {w : List Char}

theorem pending_cut_ne_none_iff :
    (Tally.of (Lexeme.cut w)).pending ≠ none ↔ ∃ s : Sign, w.getLast? = some s.char := by
  rw [Tally.pending_of, Option.ne_none_iff_exists']
  simp only [signAtEnd_cut_eq_some_iff]

theorem pending_cut_eq_none_iff :
    (Tally.of (Lexeme.cut w)).pending = none ↔ ¬ ∃ s : Sign, w.getLast? = some s.char :=
  (not_iff_comm.mp pending_cut_ne_none_iff).symm

theorem parseCompact_eq_error_iff_firstFault {r : Rejection} :
    parseCompact w = .error r ↔ FirstFault w r := by
  rw [parseCompact_eq_error_iff, Terms.read_eq_error_iff]
  constructor
  · rintro ((⟨front, l, back, cause, hcut, hfront, hl, rfl⟩ | ⟨h, hpending, rfl⟩) |
      ⟨h, hpending, ⟨hgroups, rfl⟩ | ⟨hgroups, hfit, rfl⟩⟩)
    · exact .lexeme hcut (faultless_iff_clean.mpr hfront) (violation_iff_fault.mpr hl)
    · rw [Lexeme.flatMap_text_cut]
      exact .danglingSign (faultless_iff_clean.mpr h) (pending_cut_ne_none_iff.mp hpending)
    · exact .noDice (faultless_iff_clean.mpr h) (pending_cut_eq_none_iff.mp hpending)
        (h.groups_eq_nil_iff.mp hgroups)
    · rw [ne_eq, h.groups_eq_nil_iff] at hgroups
      push Not at hgroups
      exact .totalOverflow (faultless_iff_clean.mpr h) (pending_cut_eq_none_iff.mp hpending)
        hgroups (totalBounds_eq_none_iff.mpr hfit)
  · intro h
    cases h with
    | lexeme hcut hfront hl =>
      exact Or.inl (Or.inl ⟨_, _, _, _, hcut, faultless_iff_clean.mp hfront,
        violation_iff_fault.mp hl, rfl⟩)
    | danglingSign h hsign =>
      refine Or.inl (Or.inr ⟨faultless_iff_clean.mp h, pending_cut_ne_none_iff.mpr hsign, ?_⟩)
      rw [Lexeme.flatMap_text_cut]
    | noDice h hsign hdice =>
      rw [← pending_cut_eq_none_iff] at hsign
      rw [faultless_iff_clean] at h
      exact Or.inr ⟨h, hsign, Or.inl ⟨h.groups_eq_nil_iff.mpr hdice, rfl⟩⟩
    | totalOverflow h hsign hdice hbounds =>
      rw [← pending_cut_eq_none_iff] at hsign
      rw [faultless_iff_clean] at h
      refine Or.inr ⟨h, hsign, Or.inr ⟨?_, totalBounds_eq_none_iff.mp hbounds, rfl⟩⟩
      rw [ne_eq, h.groups_eq_nil_iff]
      push Not
      exact hdice

/-- A fault inside the notation comes before the sign at its end. -/
example : parse "2d6 + 0é9 -" = .error ⟨.unreadable, 5, "é"⟩ := by
  cbv

/-- **The report on a rejected notation.** A notation is rejected for the first fault of its text
without blanks. The position is a character boundary of this text, and the text at fault is what
stands there, byte for byte. -/
theorem parse_eq_error_iff_firstFault (s : String) (r : Rejection) :
    (parse s = .error r ↔ FirstFault (Text.compact s.toList) r) ∧
    (parse s = .error r →
      (⟨r.position⟩ : String.Pos.Raw).IsValid (String.ofList (Text.compact s.toList)) ∧
      (String.ofList (Text.compact s.toList)).toByteArray.extract r.position
        (r.position + r.slice.utf8ByteSize) = r.slice.toByteArray) := by
  refine ⟨parseCompact_eq_error_iff_firstFault, fun h => ?_⟩
  obtain ⟨pre, post, hsplit, hposition⟩ :=
    (parseCompact_eq_error_iff_firstFault.mp h).exists_split
  have hpiece := isValid_and_extract pre r.slice.toList post
  rwa [← hsplit, ← hposition, String.ofList_toList] at hpiece

end Expression

end DiceSum
