import DiceSum.Proofs.LineEndings
import DiceSum.Proofs.Transcript

/-!
# Lines that are skipped

The answer to a line does not depend on its blanks, and so not on how the line is ended. A line that
is not rolled moves nothing: putting such lines into a row of lines, or taking them out, adds or
removes a prompt for each of them, and a report for each that is not blank, and leaves all rolls as
they are.

## Main definitions

* `DiceSum.Session.Useless`, `DiceSum.Session.Padded` — the lines that are not rolled, and a row with
  some of them put in.
* `DiceSum.Session.Adds` — a text with some pieces put in.
* `DiceSum.Session.results` — the texts of the rolls in the output of a session.

## Main results

* `DiceSum.Session.answer_congr` — the blanks of a line do not matter.
* `DiceSum.Session.results_of_encodes` — the texts of the rolls can be read off the output.
* `DiceSum.Session.Padded.adds_output`, `DiceSum.Session.Padded.adds_errors` — what useless lines
  add to a session.
* `DiceSum.Session.transcript_of_edits` — two sessions whose lines differ in their ends and in
  useless lines.
-/

namespace DiceSum.Session

variable {σ : Type} [Source σ] {s t : String} {lines lines' : List String} {input : List UInt8}

/-! ### Blanks and ends of lines -/

/-- The blanks of a line do not matter. -/
theorem answer_congr (h : Text.SameCompact s t) (r : Roller σ) : answer s r = answer t r := by
  have hblank : Text.trim s.toList = [] ↔ Text.trim t.toList = [] := by
    rw [Text.trim_eq_nil_iff, Text.trim_eq_nil_iff, h]
  have hparse : Expression.parse s = Expression.parse t := congrArg Expression.parseCompact h
  rw [answer, answer, Roller.roll, Roller.roll, hparse]
  by_cases hs : Text.trim s.toList = []
  · rw [if_pos hs, if_pos (hblank.mp hs)]
  · rw [if_neg hs, if_neg (mt hblank.mpr hs)]

theorem answerAll_congr (h : List.Forall₂ Text.SameCompact lines lines') (r : Roller σ) :
    answerAll lines r = answerAll lines' r := by
  induction h generalizing r with
  | nil => rfl
  | cons hs _ ih => rw [answerAll_cons, answerAll_cons, answer_congr hs, ih]

/-- A session over a written input answers the lines that were written. -/
theorem runFrom_of_encodes (h : Line.Encodes lines input) (source : σ) :
    runFrom source input = transcript (answerAll lines (Roller.start source)).1 true := by
  rw [runFrom_eq, h.all_isText, answerAll_congr h.texts_cut]

/-! ### Useless lines -/

/-- A line that is not rolled: nothing is left of it without its blanks, or it is no notation. -/
def Useless (s : String) : Prop :=
  Text.compact s.toList = [] ∨ ∃ x, Expression.parse s = .error x

theorem Useless.exists_error (h : Useless s) : ∃ x, Expression.parse s = .error x :=
  h.elim (fun hblank => ⟨_, parse_of_compact_eq_nil hblank⟩) id

theorem Useless.not_accepts (h : Useless s) : ¬ accepts s = true := by
  obtain ⟨x, hx⟩ := h.exists_error
  rw [accepts, hx]
  exact Bool.false_ne_true

/-- The last row is the first row with the useless lines of the second put in, at any places. -/
inductive Padded : List String → List String → List String → Prop
  | nil : Padded [] [] []
  | kept {core extra lines : List String} (s : String) (h : Padded core extra lines) :
      Padded (s :: core) extra (s :: lines)
  | extra {core extra lines : List String} {s : String} (hs : Useless s)
      (h : Padded core extra lines) : Padded core (s :: extra) (s :: lines)

variable {core extra : List String}

/-- Useless lines are not among the accepted ones. -/
theorem Padded.filter_accepts (h : Padded core extra lines) :
    lines.filter accepts = core.filter accepts := by
  induction h with
  | nil => rfl
  | kept s _ ih => rw [List.filter_cons, List.filter_cons, ih]
  | extra hs _ ih => rw [List.filter_cons_of_neg hs.not_accepts, ih]

/-! ### What useless lines add -/

/-- The last text is the one before it with `n` pieces put in, at any places. -/
inductive Adds (piece : String) : Nat → String → String → Prop
  | none (a : String) : Adds piece 0 a a
  | more {n : Nat} {a front back : String} (h : Adds piece n a (front ++ back)) :
      Adds piece (n + 1) a (front ++ piece ++ back)

theorem Adds.prepend {piece a b : String} {n : Nat} (h : Adds piece n a b) (c : String) :
    Adds piece n (c ++ a) (c ++ b) := by
  induction h with
  | none a => exact .none (c ++ a)
  | more _ ih =>
    rw [← String.append_assoc] at ih
    simpa only [String.append_assoc] using ih.more

theorem Adds.cons {piece a b : String} {n : Nat} (h : Adds piece n a b) :
    Adds piece (n + 1) a (piece ++ b) := by
  rw [← String.empty_append (s := b)] at h
  have hmore := h.more
  rwa [String.empty_append] at hmore

/-- The output for a row of lines that are answered by a roller. -/
def outputFrom (r : Roller σ) (lines : List String) : String :=
  String.join ((answerAll lines r).1.map fun reply => reply.output ++ prompt)

/-- The error output for a row of lines that are answered by a roller. -/
def errorsFrom (r : Roller σ) (lines : List String) : String :=
  String.join ((answerAll lines r).1.map Reply.errors)

theorem outputFrom_cons (r : Roller σ) (s : String) (lines : List String) :
    outputFrom r (s :: lines) =
      (answer s r).1.output ++ prompt ++ outputFrom (answer s r).2 lines := by
  rw [outputFrom, answerAll_cons, List.map_cons, String.join_cons, outputFrom]

theorem errorsFrom_cons (r : Roller σ) (s : String) (lines : List String) :
    errorsFrom r (s :: lines) = (answer s r).1.errors ++ errorsFrom (answer s r).2 lines := by
  rw [errorsFrom, answerAll_cons, List.map_cons, String.join_cons, errorsFrom]

/-- Each useless line adds a prompt to the output. -/
theorem Padded.adds_output (h : Padded core extra lines) (r : Roller σ) :
    Adds prompt extra.length (outputFrom r core) (outputFrom r lines) := by
  induction h generalizing r with
  | nil => exact .none _
  | kept s _ ih =>
    rw [outputFrom_cons, outputFrom_cons]
    exact (ih _).prepend _
  | extra hs _ ih =>
    obtain ⟨x, hx⟩ := hs.exists_error
    rw [outputFrom_cons, answer_of_error hx, String.empty_append]
    exact (ih r).cons

/-- Each useless line that is not blank adds a report to the error output. -/
theorem Padded.adds_errors (h : Padded core extra lines) (r : Roller σ) :
    Adds rejectedLine (extra.countP reports) (errorsFrom r core) (errorsFrom r lines) := by
  induction h generalizing r with
  | nil => exact .none _
  | kept s _ ih =>
    rw [errorsFrom_cons, errorsFrom_cons]
    exact (ih _).prepend _
  | @extra _ _ _ s hs _ ih =>
    obtain ⟨x, hx⟩ := hs.exists_error
    rw [errorsFrom_cons, answer_of_error hx]
    by_cases hreports : reports s = true
    · rw [List.countP_cons_of_pos hreports, if_pos hreports]
      exact (ih r).cons
    · rw [List.countP_cons_of_neg hreports, if_neg hreports, String.empty_append]
      exact ih r

/-! ### Rolls in the output -/

/-- A row of characters without the prompts it starts with. -/
def dropPrompts : List Char → List Char
  | '>' :: ' ' :: w => dropPrompts w
  | w => w

/-- The texts of the rolls in the output of a session: its lines, each without the prompts in front.
Behind the last newline there are only prompts. -/
def results (output : String) : List String :=
  (output.toList.splitOn '\n').dropLast.map fun w => String.ofList (dropPrompts w)

/-- A number of prompts. -/
def prompts : Nat → List Char
  | 0 => []
  | n + 1 => '>' :: ' ' :: prompts n

theorem newline_notMem_prompts (n : Nat) : '\n' ∉ prompts n := by
  induction n with
  | zero => exact List.not_mem_nil
  | succ n ih => simp [prompts, ih]

theorem prompts_append_prompt (n : Nat) : prompts n ++ prompt.toList = prompts (n + 1) := by
  induction n with
  | zero => rfl
  | succ n ih => exact congrArg ('>' :: ' ' :: ·) ih

theorem dropPrompts_prompts_append (n : Nat) {w : List Char} (hw : w.head? ≠ some '>') :
    dropPrompts (prompts n ++ w) = w := by
  induction n with
  | zero =>
    rw [prompts, List.nil_append]
    cases w with
    | nil => rfl
    | cons c w =>
      have hc : c ≠ '>' := fun hc => hw (congrArg some hc)
      rw [dropPrompts.eq_def]
      split
      · next h => exact absurd (List.cons.inj h).1 hc
      · rfl
  | succ n ih => exact ih

theorem newline_notMem_numeral (n : Nat) : '\n' ∉ Text.numeral n := fun h =>
  absurd (Text.isDigit_of_mem_numeral h) (by decide)

theorem newline_notMem_integer (x : Int) : '\n' ∉ Text.integer x := by
  rw [Text.integer]
  split <;> simp [newline_notMem_numeral]

/-- The text of a roll is a single line. -/
theorem newline_notMem_chars (r : Roll) : '\n' ∉ r.chars := by
  have hrow : '\n' ∉ Roll.rowChars r.faces := by
    cases r.faces with
    | nil => exact List.not_mem_nil
    | cons x xs => simp [Roll.rowChars, newline_notMem_integer]
  have hmodifier : '\n' ∉ Roll.modifierChars r.modifier := by
    rw [Roll.modifierChars]
    split
    · exact List.not_mem_nil
    · split <;> simp [newline_notMem_numeral]
  simp [Roll.chars, hrow, hmodifier, newline_notMem_integer]

/-- The texts of the rolls are read off the output, behind any number of prompts. -/
theorem results_prompts_append {rolls : List Roll} {outputs : List String}
    (h : Shown lines rolls outputs) (n : Nat) :
    results (String.ofList (prompts n) ++ String.join (outputs.map (· ++ prompt))) =
      rolls.map Roll.text := by
  induction h generalizing n with
  | nil =>
    rw [results, List.map_nil, String.join_nil, String.append_empty, String.toList_ofList,
      List.splitOn_eq_singleton (newline_notMem_prompts n)]
    rfl
  | @accepted s e roll lines rolls outputs _ _ ih =>
    have hline : '\n' ∉ prompts n ++ roll.chars := by
      rw [List.mem_append, not_or]
      exact ⟨newline_notMem_prompts n, newline_notMem_chars roll⟩
    have hsplit : (String.ofList (prompts n) ++
        String.join (((roll.text ++ "\n") :: outputs).map (· ++ prompt))).toList =
          (prompts n ++ roll.chars) ++ '\n' ::
            (String.ofList (prompts 1) ++ String.join (outputs.map (· ++ prompt))).toList := by
      simp [prompt, prompts]
    rw [results, hsplit, List.splitOn_append_cons_self_of_not_mem hline,
      List.dropLast_cons_of_ne_nil (List.splitOn_ne_nil _ _), List.map_cons,
      dropPrompts_prompts_append n (by simp [Roll.chars]), List.map_cons, ← ih 1]
    rfl
  | rejected _ _ ih =>
    have hprompts : String.ofList (prompts n) ++ prompt = String.ofList (prompts (n + 1)) := by
      rw [← prompts_append_prompt, String.ofList_append, String.ofList_toList]
    rw [List.map_cons, String.join_cons, String.empty_append, ← String.append_assoc, hprompts, ih]

/-! ### Whole sessions -/

theorem output_of_encodes (h : Line.Encodes lines input) (source : σ) :
    (runFrom source input).output = prompt ++ outputFrom (Roller.start source) lines := by
  rw [runFrom_of_encodes h]
  rfl

theorem errors_of_encodes (h : Line.Encodes lines input) (source : σ) :
    (runFrom source input).errors = errorsFrom (Roller.start source) lines := by
  rw [runFrom_of_encodes h]
  exact String.append_empty

/-- The rolls that can be read off the output are those of the accepted lines alone. -/
theorem results_of_encodes (h : Line.Encodes lines input) (source : σ) {rolls : List Roll}
    (hrolls : (serveAll ((lines.filter accepts).map .written) (Roller.start source)).1 =
      rolls.map .ok) : results (runFrom source input).output = rolls.map Roll.text := by
  obtain ⟨rolls', hserve, hshown⟩ := exists_rolls_answerAll lines (Roller.start source)
  have heq : rolls = rolls' := by
    rw [hserve] at hrolls
    exact (List.map_injective_iff.mpr (fun _ _ => Except.ok.inj) hrolls).symm
  rw [output_of_encodes h, heq, ← results_prompts_append hshown 1, List.map_map]
  rfl

/-- A session over a row with useless lines in it, against the row without them. -/
theorem Padded.session (hlines : Padded core extra lines) (h : Line.Encodes lines input)
    (source : σ) {rolls : List Roll}
    (hrolls : (serveAll ((core.filter accepts).map .written) (Roller.start source)).1 =
      rolls.map .ok) :
    results (runFrom source input).output = rolls.map Roll.text ∧
      Adds prompt extra.length (prompt ++ outputFrom (Roller.start source) core)
        (runFrom source input).output ∧
      Adds rejectedLine (extra.countP reports) (errorsFrom (Roller.start source) core)
        (runFrom source input).errors ∧
      (runFrom source input).code = 0 := by
  refine ⟨results_of_encodes h source ?_, ?_, ?_, ?_⟩
  · rw [hlines.filter_accepts, hrolls]
  · rw [output_of_encodes h]
    exact (hlines.adds_output (Roller.start source)).prepend _
  · rw [errors_of_encodes h]
    exact hlines.adds_errors (Roller.start source)
  · rw [runFrom_of_encodes h]
    rfl

/-- **A transcript depends neither on the ends of lines nor on lines that are skipped.** However the
lines of a row are ended, the session is the same, from any source. When useless lines are taken out
of a row and others are put in, at any places, the texts of the rolls that can be read off the
output stay the same, and are those of the accepted lines alone; both outputs are one text with a
prompt put in for each of these lines, both error outputs are one text with a report put in for each
of them that is not blank, and the exit code is the same. -/
theorem transcript_of_edits (source : σ) :
    (∀ lines input input', Line.Encodes lines input → Line.Encodes lines input' →
      runFrom source input' = runFrom source input) ∧
    ∀ core removed added lines lines' input input',
      Padded core removed lines → Padded core added lines' →
      Line.Encodes lines input → Line.Encodes lines' input' →
      (∃ rolls : List Roll,
        (serveAll ((core.filter accepts).map .written) (Roller.start source)).1 = rolls.map .ok ∧
        results (runFrom source input).output = rolls.map Roll.text ∧
        results (runFrom source input').output = rolls.map Roll.text) ∧
      (∃ output, Adds "> " removed.length output (runFrom source input).output ∧
        Adds "> " added.length output (runFrom source input').output) ∧
      (∃ errors, Adds rejectedLine (removed.countP reports) errors (runFrom source input).errors ∧
        Adds rejectedLine (added.countP reports) errors (runFrom source input').errors) ∧
      (runFrom source input).code = 0 ∧ (runFrom source input').code = 0 := by
  constructor
  · intro lines input input' h h'
    rw [runFrom_of_encodes h, runFrom_of_encodes h']
  · intro core removed added lines lines' input input' hremoved hadded h h'
    obtain ⟨rolls, hserve, -⟩ := exists_rolls_answerAll core (Roller.start source)
    have hrolls := congrArg Prod.fst hserve
    obtain ⟨hresults, houtput, herrors, hcode⟩ := hremoved.session h source hrolls
    obtain ⟨hresults', houtput', herrors', hcode'⟩ := hadded.session h' source hrolls
    exact ⟨⟨rolls, hrolls, hresults, hresults'⟩, ⟨_, houtput, houtput'⟩, ⟨_, herrors, herrors'⟩,
      hcode, hcode'⟩

/-- A blank line, and a notation with a carriage return that is not ended. -/
def blankThenRoll : List UInt8 :=
  Line.bytes " \t" ++ Line.Ending.returnNewline.bytes ++ Line.bytes "2d6\r"

/-- The same notation, ended, and a line that is rejected. -/
def rollThenFault : List UInt8 :=
  Line.bytes "2d6\r" ++ Line.Ending.newline.bytes ++
    (Line.bytes "d6*6" ++ Line.Ending.returnNewline.bytes ++ [])

theorem transcript_of_edits_blankAndFault :
    Line.Encodes [" \t", "2d6\r"] blankThenRoll ∧
    Line.Encodes [" \t", "2d6\r"] (blankThenRoll ++ [Line.newline]) ∧
    Line.Encodes ["2d6\r", "d6*6"] rollThenFault ∧
    runFrom Expression.oddSamples (blankThenRoll ++ [Line.newline]) =
      runFrom Expression.oddSamples blankThenRoll ∧
    results (runFrom Expression.oddSamples rollThenFault).output =
      results (runFrom Expression.oddSamples blankThenRoll).output ∧
    (∃ errors, Adds rejectedLine 0 errors (runFrom Expression.oddSamples blankThenRoll).errors ∧
      Adds rejectedLine 1 errors (runFrom Expression.oddSamples rollThenFault).errors) := by
  have hfault : Useless "d6*6" := .inr ⟨⟨.unreadable, 2, "*"⟩, by cbv⟩
  have hblank : Useless " \t" := .inl (by decide)
  have hremoved : Padded ["2d6\r"] [" \t"] [" \t", "2d6\r"] := .extra hblank (.kept _ .nil)
  have hadded : Padded ["2d6\r"] ["d6*6"] ["2d6\r", "d6*6"] := .kept _ (.extra hfault .nil)
  have hinput : Line.Encodes [" \t", "2d6\r"] blankThenRoll :=
    .line (by decide) .returnNewline (.last (by decide) (by decide))
  have hended : Line.Encodes [" \t", "2d6\r"] (blankThenRoll ++ [Line.newline]) := by
    rw [blankThenRoll, List.append_assoc]
    exact .line (by decide) .returnNewline (.line (by decide) .newline .nil)
  have hinput' : Line.Encodes ["2d6\r", "d6*6"] rollThenFault :=
    .line (by decide) .newline (.line (by decide) .returnNewline .nil)
  have hcount : [" \t"].countP reports = 0 := by cbv
  have hcount' : ["d6*6"].countP reports = 1 := by cbv
  obtain ⟨hends, hedits⟩ := transcript_of_edits Expression.oddSamples
  obtain ⟨⟨rolls, -, hresults, hresults'⟩, -, herrors, -⟩ :=
    hedits _ _ _ _ _ _ _ hremoved hadded hinput hinput'
  rw [hcount, hcount'] at herrors
  exact ⟨hinput, hended, hinput', hends _ _ _ hinput hended, hresults'.trans hresults.symm, herrors⟩

end DiceSum.Session
