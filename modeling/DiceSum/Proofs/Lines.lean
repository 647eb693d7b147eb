import DiceSum.Line
import DiceSum.Text.Blank
import Mathlib

/-!
# Cutting an input into lines

An input is a number of rows, each with a newline behind it, and a last row without one. Its lines
are the rows without a carriage return at their ends, and the last row if it is not empty. This
file shows that cutting finds them, and which of them are texts and which of the texts are blank.

## Main definitions

* `DiceSum.Line.Splits` — the rows of an input.
* `DiceSum.Line.texts` — the texts of the lines before the first that is none.

## Main results

* `DiceSum.Line.Splits.cut_eq` — the lines of an input.
* `DiceSum.Line.exists_append_of_cut_eq_append` — an input is cut where its lines are.
* `DiceSum.Line.text?_eq_some_iff` — the texts of lines.
* `DiceSum.Text.trim_eq_nil_iff` — the blank texts.
-/

namespace DiceSum

/-- Trimming leaves nothing of a text exactly when all its characters are blank. -/
theorem Text.trim_eq_nil_iff {s : List Char} : trim s = [] ↔ compact s = [] := by
  rw [trim, List.reverse_eq_nil_iff, List.dropWhile_eq_nil_iff, compact_eq_nil_iff]
  simp only [List.mem_reverse]
  refine ⟨fun h c hc => ?_, fun h c hc => h c ((List.dropWhile_suffix _).subset hc)⟩
  rw [← List.takeWhile_append_dropWhile (p := isBlank) (l := s)] at hc
  rcases List.mem_append.mp hc with hfront | hback
  · exact List.mem_takeWhile_imp hfront
  · exact h c hback

namespace Line

variable {input row rest last : List UInt8} {rows : List (List UInt8)}

/-! ### Cutting -/

/-- The input is made of the given rows, each with a newline behind it, and a last row without. -/
structure Splits (input : List UInt8) (rows : List (List UInt8)) (last : List UInt8) : Prop where
  input_eq : rows.flatMap (· ++ [newline]) ++ last = input
  newline_notMem_rows : ∀ row ∈ rows, newline ∉ row
  newline_notMem_last : newline ∉ last

private theorem ne_newline_of_mem (h : newline ∉ row) : ∀ b ∈ row, (b != newline) = true := by
  intro b hb
  rw [bne_iff_ne]
  rintro rfl
  exact h hb

theorem beforeNewline_append (h : newline ∉ row) (rest : List UInt8) :
    beforeNewline (row ++ newline :: rest) = row := by
  rw [beforeNewline, List.takeWhile_append_of_pos (ne_newline_of_mem h),
    List.takeWhile_cons_of_neg (by simp), List.append_nil]

theorem afterNewline_append (h : newline ∉ row) (rest : List UInt8) :
    afterNewline (row ++ newline :: rest) = rest := by
  rw [afterNewline, List.dropWhile_append_of_pos (ne_newline_of_mem h),
    List.dropWhile_cons_of_neg (by simp), List.tail_cons]

theorem cut_append (h : newline ∉ row) (rest : List UInt8) :
    cut (row ++ newline :: rest) = dropReturn row :: cut rest := by
  obtain ⟨b, bytes, hbytes⟩ := List.exists_cons_of_ne_nil
    (List.append_ne_nil_of_right_ne_nil row (List.cons_ne_nil newline rest))
  have hmem : newline ∈ b :: bytes := by
    rw [← hbytes]
    exact List.mem_append_right _ List.mem_cons_self
  rw [hbytes, cut, if_pos hmem, ← hbytes, beforeNewline_append h, afterNewline_append h]

theorem cut_of_notMem (h : newline ∉ last) : cut last = if last = [] then [] else [last] := by
  cases last with
  | nil => rw [cut, if_pos rfl]
  | cons b bytes => rw [cut, if_neg h, if_neg (List.cons_ne_nil b bytes)]

/-- The lines of an input are its rows without a carriage return at their ends, and what stands
behind the last newline unless that is nothing. -/
theorem Splits.cut_eq (h : Splits input rows last) :
    cut input = rows.map dropReturn ++ if last = [] then [] else [last] := by
  obtain ⟨rfl, hrows, hlast⟩ := h
  induction rows with
  | nil => exact cut_of_notMem hlast
  | cons row rows ih =>
    rw [List.forall_mem_cons] at hrows
    rw [List.flatMap_cons, List.append_assoc, List.append_assoc, List.singleton_append,
      cut_append hrows.1, ih hrows.2, List.map_cons, List.cons_append]

theorem Splits.cons (hrow : newline ∉ row) (h : Splits input rows last) :
    Splits (row ++ newline :: input) (row :: rows) last where
  input_eq := by
    rw [List.flatMap_cons, List.append_assoc, List.append_assoc, h.input_eq,
      List.singleton_append]
  newline_notMem_rows := List.forall_mem_cons.mpr ⟨hrow, h.newline_notMem_rows⟩
  newline_notMem_last := h.newline_notMem_last

/-- Every input is made of such rows. -/
theorem exists_splits (input : List UInt8) : ∃ rows last, Splits input rows last := by
  induction hlength : input.length using Nat.strong_induction_on generalizing input with
  | _ n ih =>
    by_cases h : newline ∈ input
    · obtain ⟨row, rest, rfl, hrow⟩ := List.eq_append_cons_of_mem h
      have hlt : rest.length < n := by
        rw [← hlength, List.length_append, List.length_cons]
        omega
      obtain ⟨rows, last, hrest⟩ := ih rest.length hlt rest rfl
      exact ⟨row :: rows, last, hrest.cons hrow⟩
    · exact ⟨[], input, rfl, by simp, h⟩

/-- Where the lines of an input are divided, the input is. -/
theorem exists_append_of_cut_eq_append {lines lines' : List (List UInt8)}
    (h : cut input = lines ++ lines') :
    ∃ front back, front ++ back = input ∧ cut front = lines ∧ cut back = lines' := by
  induction lines generalizing input with
  | nil => exact ⟨[], input, rfl, by rw [cut], h⟩
  | cons line lines ih =>
    by_cases hmem : newline ∈ input
    · obtain ⟨row, rest, rfl, hrow⟩ := List.eq_append_cons_of_mem hmem
      rw [cut_append hrow, List.cons_append, List.cons.injEq] at h
      obtain ⟨front, back, rfl, hfront, hback⟩ := ih h.2
      refine ⟨row ++ newline :: front, back, by rw [List.append_assoc, List.cons_append], ?_, hback⟩
      rw [cut_append hrow, hfront, h.1]
    · -- Without a newline the input is a single line, and nothing stands behind it.
      have hne : input ≠ [] := by
        rintro rfl
        rw [cut] at h
        cases h
      rw [cut_of_notMem hmem, if_neg hne, List.cons_append, List.cons.injEq, List.nil_eq,
        List.append_eq_nil_iff] at h
      obtain ⟨rfl, rfl, rfl⟩ := h
      exact ⟨input, [], List.append_nil _, by rw [cut_of_notMem hmem, if_neg hne], by rw [cut]⟩

/-! ### Texts -/

/-- A line is the text whose encoding in UTF-8 it is. -/
theorem text?_eq_some_iff {line : List UInt8} {s : String} :
    text? line = some s ↔ s.toUTF8 = line.toByteArray := by
  rw [text?, String.fromUTF8?]
  constructor
  · intro h
    split at h
    · cases h
      rfl
    · cases h
  · intro h
    have hvalid : line.toByteArray.IsValidUTF8 := h ▸ s.isValidUTF8
    rw [dif_pos hvalid, Option.some.injEq, ← String.toByteArray_inj]
    exact h.symm

/-- Whether a line is a text. -/
def isText (line : List UInt8) : Bool := (text? line).isSome

/-- The texts of the lines before the first that is none. -/
def texts (lines : List (List UInt8)) : List String := (lines.takeWhile isText).filterMap text?

theorem texts_cons_of_some {line : List UInt8} {s : String} (h : text? line = some s)
    (lines : List (List UInt8)) : texts (line :: lines) = s :: texts lines := by
  rw [texts, List.takeWhile_cons_of_pos (by rw [isText, h]; rfl), List.filterMap_cons_some h, texts]

theorem texts_cons_of_none {line : List UInt8} (h : text? line = none)
    (lines : List (List UInt8)) : texts (line :: lines) = [] := by
  rw [texts, List.takeWhile_cons_of_neg (by rw [isText, h]; exact Bool.false_ne_true),
    List.filterMap_nil]

/-- The lines from the first that is no text on do not matter. -/
theorem texts_takeWhile (lines : List (List UInt8)) :
    texts (lines.takeWhile isText) = texts lines := by
  rw [texts, List.takeWhile_idem, texts]

end Line

end DiceSum
