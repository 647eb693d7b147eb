import DiceSum.Proofs.Lines

/-!
# Ends of lines

A row of texts is written as an input by putting a newline, or a carriage return and a newline,
behind each of them; the last may be left without if it is not empty. An ASCII character stands in
the bytes of a text where it stands in the text, so that the input is cut where it was put together.
At most a carriage return at the end of a text is lost, which is blank.

## Main definitions

* `DiceSum.Line.bytes` — a text in UTF-8.
* `DiceSum.Line.Ending`, `DiceSum.Line.Encodes` — the ways to end a line, and the inputs that a row
  of texts can be written as.
* `DiceSum.Text.SameCompact` — texts that are the same without their blanks.

## Main results

* `DiceSum.Line.newline_mem_bytes_iff`, `DiceSum.Line.text?_bytes` — the bytes of a text.
* `DiceSum.Line.Encodes.texts_cut`, `DiceSum.Line.Encodes.all_isText` — the lines of an input that
  is written in this way.
-/

namespace DiceSum

/-- Texts that are the same without their blanks. -/
def Text.SameCompact (s t : String) : Prop := compact s.toList = compact t.toList

namespace Line

/-! ### Texts in UTF-8 -/

/-- The bytes of a text. -/
def bytes (s : String) : List UInt8 := s.toUTF8.data.toList

theorem bytes_eq_flatMap (s : String) : bytes s = s.toList.flatMap String.utf8EncodeChar := by
  have h : s.toUTF8 = (s.toList.flatMap String.utf8EncodeChar).toByteArray :=
    String.utf8Encode_toList.symm
  rw [bytes, h, List.data_toByteArray]

theorem bytes_ofList (w : List Char) :
    bytes (String.ofList w) = w.flatMap String.utf8EncodeChar := by
  rw [bytes_eq_flatMap, String.toList_ofList]

/-- A text is read back from its bytes. -/
theorem text?_bytes (s : String) : text? (bytes s) = some s := by
  rw [text?_eq_some_iff, bytes_eq_flatMap]
  exact String.utf8Encode_toList.symm

/-- An ASCII byte stands in the encoding of the character with its number, and in no other. -/
theorem mem_utf8EncodeChar_iff {c : Char} {b : UInt8} (hb : b.toNat < 128) :
    b ∈ String.utf8EncodeChar c ↔ c.toNat = b.toNat := by
  have hmod (n : Nat) : b = UInt8.ofNat n ↔ n % 256 = b.toNat := by
    rw [← UInt8.toNat_inj, UInt8.toNat_ofNat', eq_comm]
  have hc : c.val.toNat = c.toNat := rfl
  -- the encoding has one, two, three or four bytes
  simp only [String.utf8EncodeChar, hc]
  split_ifs <;> simp only [List.mem_cons, List.not_mem_nil, or_false, hmod] <;> omega

theorem newline_mem_bytes_iff {s : String} : newline ∈ bytes s ↔ '\n' ∈ s.toList := by
  rw [bytes_eq_flatMap, List.mem_flatMap]
  constructor
  · rintro ⟨c, hc, hb⟩
    rw [mem_utf8EncodeChar_iff (by decide)] at hb
    rwa [Char.toNat_inj.mp (show c.toNat = '\n'.toNat from hb)] at hc
  · exact fun h => ⟨'\n', h, (mem_utf8EncodeChar_iff (by decide)).mpr rfl⟩

theorem bytes_ne_nil {s : String} (h : s ≠ "") : bytes s ≠ [] := by
  intro hbytes
  have htext := text?_bytes s
  rw [hbytes] at htext
  exact h (Option.some.inj (htext.symm.trans (text?_bytes "")))

/-! ### Carriage returns -/

theorem dropReturn_append_return (row : List UInt8) : dropReturn (row ++ [carriageReturn]) = row := by
  rw [dropReturn, if_pos List.getLast?_concat, List.dropLast_concat]

/-- Dropping a carriage return from the bytes of a text leaves a text, and all of the text that is
not blank. -/
theorem exists_text_dropReturn_bytes (s : String) :
    ∃ t, text? (dropReturn (bytes s)) = some t ∧ Text.SameCompact t s := by
  rcases List.eq_nil_or_concat' s.toList with hs | ⟨w, c, hs⟩
  · obtain rfl : s = "" := String.toList_eq_nil_iff.mp hs
    exact ⟨"", text?_bytes "", rfl⟩
  · have hbytes : bytes s = w.flatMap String.utf8EncodeChar ++ String.utf8EncodeChar c := by
      rw [bytes_eq_flatMap, hs, List.flatMap_append, List.flatMap_singleton]
    by_cases hc : c = '\r'
    · subst hc
      refine ⟨String.ofList w, ?_, ?_⟩
      · have hreturn : String.utf8EncodeChar '\r' = [carriageReturn] := by decide
        rw [hbytes, hreturn, dropReturn_append_return, ← bytes_ofList, text?_bytes]
      · have hblank : Text.compact ['\r'] = [] := by decide
        rw [Text.SameCompact, hs, Text.compact_append, hblank, List.append_nil, String.toList_ofList]
    · refine ⟨s, ?_, rfl⟩
      have hlast : (bytes s).getLast? ≠ some carriageReturn := by
        intro hlast
        rw [hbytes, List.getLast?_append_of_ne_nil _ (by simp [String.utf8EncodeChar_ne_nil])] at hlast
        have hmem := List.mem_of_getLast? hlast
        rw [mem_utf8EncodeChar_iff (by decide)] at hmem
        exact hc (Char.toNat_inj.mp hmem)
      rw [dropReturn, if_neg hlast, text?_bytes]

/-! ### Written lines -/

/-- The ways to end a line. -/
inductive Ending where
  | newline
  | returnNewline

/-- The bytes of an ending. -/
def Ending.bytes : Ending → List UInt8
  | newline => [Line.newline]
  | returnNewline => [carriageReturn, Line.newline]

/-- The input is a row of texts, each with an ending behind it; the last may have none unless it is
empty. -/
inductive Encodes : List String → List UInt8 → Prop
  | nil : Encodes [] []
  | line {s : String} {lines : List String} {input : List UInt8} (hs : '\n' ∉ s.toList)
      (ending : Ending) (h : Encodes lines input) :
      Encodes (s :: lines) (bytes s ++ ending.bytes ++ input)
  | last {s : String} (hs : '\n' ∉ s.toList) (hne : s ≠ "") : Encodes [s] (bytes s)

/-- A line that is read as a text, but for its blanks. -/
def ReadsAs (line : List UInt8) (s : String) : Prop :=
  ∃ t, text? line = some t ∧ Text.SameCompact t s

/-- An ended line is cut off, and read as the text that it was. -/
theorem exists_cut_ended {s : String} (hs : '\n' ∉ s.toList) (ending : Ending)
    (input : List UInt8) :
    ∃ line, cut (bytes s ++ ending.bytes ++ input) = line :: cut input ∧ ReadsAs line s := by
  have hbytes : newline ∉ bytes s := mt newline_mem_bytes_iff.mp hs
  cases ending with
  | newline =>
    refine ⟨dropReturn (bytes s), ?_, exists_text_dropReturn_bytes s⟩
    rw [Ending.bytes, List.append_assoc, List.singleton_append, cut_append hbytes]
  | returnNewline =>
    have hrow : newline ∉ bytes s ++ [carriageReturn] := by
      simp [hbytes, show newline ≠ carriageReturn by decide]
    refine ⟨bytes s, ?_, s, text?_bytes s, rfl⟩
    rw [Ending.bytes, List.append_cons (bytes s), List.append_assoc, List.singleton_append,
      cut_append hrow, dropReturn_append_return]

variable {lines : List String} {input : List UInt8}

/-- The lines of a written input are read as the texts that were written. -/
theorem Encodes.forall₂_cut (h : Encodes lines input) :
    List.Forall₂ ReadsAs (cut input) lines := by
  induction h with
  | nil => rw [cut]; exact .nil
  | @line s lines input hs ending _ ih =>
    obtain ⟨line, hcut, hline⟩ := exists_cut_ended hs ending input
    rw [hcut]
    exact .cons hline ih
  | @last s hs hne =>
    rw [cut_of_notMem (mt newline_mem_bytes_iff.mp hs), if_neg (bytes_ne_nil hne)]
    exact .cons ⟨s, text?_bytes s, rfl⟩ .nil

theorem forall₂_texts {rows : List (List UInt8)} (h : List.Forall₂ ReadsAs rows lines) :
    List.Forall₂ Text.SameCompact (texts rows) lines ∧ rows.all isText = true := by
  induction h with
  | nil => exact ⟨.nil, rfl⟩
  | cons hline _ ih =>
    obtain ⟨t, ht, hcompact⟩ := hline
    rw [texts_cons_of_some ht, List.all_cons, ih.2, isText, ht]
    exact ⟨.cons hcompact ih.1, rfl⟩

/-- The texts of a written input are those that were written, but for their blanks. -/
theorem Encodes.texts_cut (h : Encodes lines input) :
    List.Forall₂ Text.SameCompact (texts (cut input)) lines :=
  (forall₂_texts h.forall₂_cut).1

theorem Encodes.all_isText (h : Encodes lines input) : (cut input).all isText = true :=
  (forall₂_texts h.forall₂_cut).2

end Line

end DiceSum
