import DiceSum.Proofs.Lines
import DiceSum.Proofs.Requests
import DiceSum.Session

/-!
# What a session writes

A session is a row of requests to one roller, one for each line. A line that is rejected moves
nothing, and so does a blank one, which would be rejected as well but is passed over without a
report. So the rolls that are shown are those of the accepted lines alone, and all the session adds
is where it shows them. A line that is not valid UTF-8 ends the session as the end of the input
would, but for a last report and the exit code.

## Main definitions

* `DiceSum.Session.accepts`, `DiceSum.Session.reports` — the lines that are rolled, and those that
  are reported.
* `DiceSum.Session.Shown` — what is shown for a row of lines.
* `DiceSum.Session.answerAll` — the answers to a row of lines.

## Main results

* `DiceSum.Session.answer_of_ok`, `DiceSum.Session.answer_of_error` — the answer to a line.
* `DiceSum.Session.exists_rolls_answerAll`, `DiceSum.Session.errors_answerAll` — the answers to a
  row of lines.
* `DiceSum.Session.answers_eq` — the answers to the lines of an input.
* `DiceSum.Session.runFrom_one_roller` — a whole session.
-/

namespace DiceSum.Session

variable {σ : Type} [Source σ] {s : String} {e : Expression} {x : Rejection}

/-! ### One line -/

/-- Whether a line is a notation. -/
def accepts (s : String) : Bool := (Expression.parse s).isOk

/-- Whether a line is reported: it is no notation, and something is left of it without its
blanks. -/
def reports (s : String) : Bool := !accepts s && Text.compact s.toList != []

/-- What is reported of a line that is no notation. -/
def rejectedLine : String := "Error: invalid dice notation\n"

/-- What is reported of a line that is not valid UTF-8. -/
def undecodedLine : String :=
  "Error: Error \x7b kind: InvalidData, message: \"stream did not contain valid UTF-8\" \x7d\n"

/-- A blank line is rejected for want of dice. -/
theorem parse_of_compact_eq_nil (h : Text.compact s.toList = []) :
    Expression.parse s = .error ⟨.noDice, 0, ""⟩ := by
  rw [Expression.parse, h, Expression.parseCompact, Lexeme.cut_nil]
  rfl

theorem answer_of_ok (h : Expression.parse s = .ok e) (r : Roller σ) :
    answer s r =
      (⟨(e.roll r.source).1.value.text ++ "\n", ""⟩, (Roller.rollExpression e r).2) := by
  have hblank : Text.trim s.toList ≠ [] := by
    intro htrim
    rw [parse_of_compact_eq_nil (Text.trim_eq_nil_iff.mp htrim)] at h
    cases h
  rw [answer, if_neg hblank, Roller.roll, h]
  rfl

theorem answer_of_error (h : Expression.parse s = .error x) (r : Roller σ) :
    answer s r = (⟨"", if reports s then rejectedLine else ""⟩, r) := by
  have hreports : reports s = true ↔ Text.trim s.toList ≠ [] := by
    simp [reports, accepts, h, Except.toBool, Text.trim_eq_nil_iff]
  by_cases hblank : Text.trim s.toList = []
  · rw [if_neg (fun hs => hreports.mp hs hblank), answer, if_pos hblank]
    rfl
  · rw [if_pos (hreports.mpr hblank), answer, if_neg hblank, Roller.roll, h]
    rfl

/-- Nothing at all is written in answer to the lines of which nothing is left without their
blanks, and to no others. -/
theorem answer_eq_empty_iff (s : String) (r : Roller σ) :
    (answer s r).1 = ⟨"", ""⟩ ↔ Text.compact s.toList = [] := by
  cases h : Expression.parse s with
  | ok e =>
    have hcompact : Text.compact s.toList ≠ [] := by
      intro hcompact
      rw [parse_of_compact_eq_nil hcompact] at h
      cases h
    rw [answer_of_ok h]
    simp [hcompact]
  | error x =>
    rw [answer_of_error h]
    by_cases hcompact : Text.compact s.toList = []
    · simp [reports, hcompact]
    · simp [reports, accepts, h, Except.toBool, hcompact, rejectedLine]

theorem answer?_of_none {line : List UInt8} (h : Line.text? line = none) (r : Roller σ) :
    answer? line r = (none, r) := by
  rw [answer?, h]
  rfl

theorem answer?_of_some {line : List UInt8} (h : Line.text? line = some s) (r : Roller σ) :
    answer? line r = (some (answer s r).1, (answer s r).2) := by
  rw [answer?, h]
  rfl

/-! ### Rows of lines -/

/-- What is shown for the lines of a row when the accepted ones have the given rolls: for an
accepted line the text of its roll, for any other nothing. -/
inductive Shown : List String → List Roll → List String → Prop
  | nil : Shown [] [] []
  | accepted {s : String} {e : Expression} {roll : Roll} {lines : List String}
      {rolls : List Roll} {outputs : List String} (h : Expression.parse s = .ok e) :
      Shown lines rolls outputs →
      Shown (s :: lines) (roll :: rolls) ((roll.text ++ "\n") :: outputs)
  | rejected {s : String} {x : Rejection} {lines : List String} {rolls : List Roll}
      {outputs : List String} (h : Expression.parse s = .error x) :
      Shown lines rolls outputs → Shown (s :: lines) rolls ("" :: outputs)

/-- Answers a row of lines, one after another. -/
def answerAll (lines : List String) : StateM (Roller σ) (List Reply) := lines.mapM answer

theorem answerAll_cons (s : String) (lines : List String) (r : Roller σ) :
    answerAll (s :: lines) r =
      ((answer s r).1 :: (answerAll lines (answer s r).2).1,
        (answerAll lines (answer s r).2).2) := by
  rw [answerAll, List.mapM_cons]
  rfl

/-- The rolls that are shown are the answers to the accepted lines alone, and these leave the roller
as all lines do. -/
theorem exists_rolls_answerAll (lines : List String) (r : Roller σ) : ∃ rolls : List Roll,
    serveAll ((lines.filter accepts).map .written) r =
      (rolls.map .ok, (answerAll lines r).2) ∧
    Shown lines rolls ((answerAll lines r).1.map Reply.output) := by
  induction lines generalizing r with
  | nil => exact ⟨[], rfl, .nil⟩
  | cons s lines ih =>
    rw [answerAll_cons]
    cases h : Expression.parse s with
    | ok e =>
      obtain ⟨rolls, hrolls, hshown⟩ := ih (Roller.rollExpression e r).2
      have haccepts : accepts s = true := by rw [accepts, h]; rfl
      have hserve : (Request.written s).serve r =
          (.ok (e.roll r.source).1.value, (Roller.rollExpression e r).2) := by
        rw [Request.serve, Roller.roll, h]
        rfl
      rw [answer_of_ok h, List.filter_cons_of_pos haccepts, List.map_cons, serveAll_cons, hserve,
        hrolls]
      exact ⟨_ :: rolls, rfl, .accepted h hshown⟩
    | error x =>
      obtain ⟨rolls, hrolls, hshown⟩ := ih r
      have haccepts : ¬ accepts s = true := by rw [accepts, h]; exact Bool.false_ne_true
      rw [answer_of_error h, List.filter_cons_of_neg haccepts]
      exact ⟨rolls, hrolls, .rejected h hshown⟩

/-- Each line that is rejected and not blank gives the same report, and no other gives one. -/
theorem errors_answerAll (lines : List String) (r : Roller σ) :
    String.join ((answerAll lines r).1.map Reply.errors) =
      String.join (List.replicate (lines.countP reports) rejectedLine) := by
  induction lines generalizing r with
  | nil => rfl
  | cons s lines ih =>
    rw [answerAll_cons, List.map_cons, String.join_cons, ih]
    cases h : Expression.parse s with
    | ok e =>
      have hreports : ¬ reports s = true := by simp [reports, accepts, h, Except.toBool]
      rw [answer_of_ok h, List.countP_cons_of_neg hreports, String.empty_append]
    | error x =>
      rw [answer_of_error h]
      by_cases hreports : reports s = true
      · rw [if_pos hreports, List.countP_cons_of_pos hreports, List.replicate_succ,
          String.join_cons]
      · rw [if_neg hreports, List.countP_cons_of_neg hreports, String.empty_append]

theorem answers_cons_of_none {line : List UInt8} (h : Line.text? line = none)
    (lines : List (List UInt8)) (r : Roller σ) : answers (line :: lines) r = (([], false), r) := by
  simp only [answers, bind, StateT.bind, answer?_of_none h]
  rfl

theorem answers_cons_of_some {line : List UInt8} (h : Line.text? line = some s)
    (lines : List (List UInt8)) (r : Roller σ) :
    answers (line :: lines) r =
      (((answer s r).1 :: (answers lines (answer s r).2).1.1, (answers lines (answer s r).2).1.2),
        (answers lines (answer s r).2).2) := by
  simp only [answers, bind, StateT.bind, answer?_of_some h]
  rfl

/-- The answers to the lines of an input are those to its texts. -/
theorem answers_eq (lines : List (List UInt8)) (r : Roller σ) :
    answers lines r =
      (((answerAll (Line.texts lines) r).1, lines.all Line.isText),
        (answerAll (Line.texts lines) r).2) := by
  induction lines generalizing r with
  | nil => rfl
  | cons line lines ih =>
    cases h : Line.text? line with
    | none =>
      have htext : Line.isText line = false := by rw [Line.isText, h]; rfl
      rw [answers_cons_of_none h, Line.texts_cons_of_none h, List.all_cons, htext, Bool.false_and]
      rfl
    | some s =>
      have htext : Line.isText line = true := by rw [Line.isText, h]; rfl
      rw [answers_cons_of_some h, Line.texts_cons_of_some h, answerAll_cons, List.all_cons, htext,
        Bool.true_and, ih]

/-! ### Whole sessions -/

theorem runFrom_eq (source : σ) (input : List UInt8) :
    runFrom source input =
      transcript (answerAll (Line.texts (Line.cut input)) (Roller.start source)).1
        ((Line.cut input).all Line.isText) := by
  rw [runFrom, answers_eq]

/-- What a session over some lines writes, told without the answers to single lines: between the
prompts the rolls of the accepted lines, which are those of one roller that is asked for nothing
else, and a report for each line that is rejected and not blank. A line that is no text ends the
session with a report of its own. -/
structure Account (source : σ) (lines : List (List UInt8)) (t : Transcript) : Prop where
  output : ∃ (rolls : List Roll) (outputs : List String),
    (serveAll (((Line.texts lines).filter accepts).map .written) (Roller.start source)).1 =
      rolls.map .ok ∧
    Shown (Line.texts lines) rolls outputs ∧
    t.output = "> " ++ String.join (outputs.map (· ++ "> "))
  errors : t.errors =
    String.join (List.replicate ((Line.texts lines).countP reports) rejectedLine) ++
      if lines.all Line.isText then "" else undecodedLine
  code : t.code = if lines.all Line.isText then 0 else 1

theorem account_runFrom (source : σ) (input : List UInt8) :
    Account source (Line.cut input) (runFrom source input) := by
  obtain ⟨rolls, hrolls, hshown⟩ :=
    exists_rolls_answerAll (Line.texts (Line.cut input)) (Roller.start source)
  rw [runFrom_eq]
  refine ⟨⟨rolls, _, congrArg Prod.fst hrolls, hshown, ?_⟩, ?_, rfl⟩
  · rw [transcript, List.map_map]
    rfl
  · rw [← errors_answerAll _ (Roller.start source)]
    rfl

/-- The lines before the first that is no text make a session of their own, which writes the same
but for the last report. -/
theorem exists_front (source : σ) (input : List UInt8) : ∃ front back, front ++ back = input ∧
    Line.cut front = (Line.cut input).takeWhile Line.isText ∧
    (runFrom source front).output = (runFrom source input).output ∧
    (runFrom source input).errors =
      (runFrom source front).errors ++
        (if (Line.cut input).all Line.isText then "" else undecodedLine) ∧
    (runFrom source front).code = 0 := by
  obtain ⟨front, back, hinput, hfront, -⟩ :=
    Line.exists_append_of_cut_eq_append (List.takeWhile_append_dropWhile (p := Line.isText)).symm
  have htexts : Line.texts (Line.cut front) = Line.texts (Line.cut input) := by
    rw [hfront, Line.texts_takeWhile]
  have hall : (Line.cut front).all Line.isText = true := by
    rw [hfront, List.all_eq_true]
    exact fun line hline => List.mem_takeWhile_imp hline
  refine ⟨front, back, hinput, hfront, ?_, ?_, ?_⟩
  · rw [runFrom_eq, runFrom_eq, htexts]
    rfl
  · rw [(account_runFrom source input).errors, (account_runFrom source front).errors, htexts,
      if_pos hall, String.append_empty]
  · rw [(account_runFrom source front).code, if_pos hall]

/-- **A session is one roller over its lines.** The lines are the rows of the input, each without a
carriage return before its newline, and what stands behind the last newline. Those before the first
that is not valid UTF-8 are answered: what is written is accounted for by the rolls of one roller
over the accepted lines, and nothing is written for a line exactly when it is blank. The first line
that is not valid UTF-8 adds a report and the exit code, and nothing else. The source may be any,
and it is that of the seed if one is given. -/
theorem runFrom_one_roller (source : σ) (input : List UInt8) :
    (∃ rows last, Line.Splits input rows last ∧
      Line.cut input = rows.map Line.dropReturn ++ if last = [] then [] else [last]) ∧
    (∀ line s, Line.text? line = some s ↔ s.toUTF8 = line.toByteArray) ∧
    (∀ s (r : Roller σ), (answer s r).1 = ⟨"", ""⟩ ↔ Text.compact s.toList = []) ∧
    Account source (Line.cut input) (runFrom source input) ∧
    (∃ front back, front ++ back = input ∧
      Line.cut front = (Line.cut input).takeWhile Line.isText ∧
      (runFrom source front).output = (runFrom source input).output ∧
      (runFrom source input).errors =
        (runFrom source front).errors ++
          (if (Line.cut input).all Line.isText then "" else undecodedLine) ∧
      (runFrom source front).code = 0) ∧
    run none source input = runFrom source input ∧
    ∀ w seed, Seed.parse w = .ok seed →
      run (some w) source input = runFrom (Seeded.ofSeed seed) input := by
  obtain ⟨rows, last, hsplits⟩ := Line.exists_splits input
  refine ⟨⟨rows, last, hsplits, hsplits.cut_eq⟩, fun line s => Line.text?_eq_some_iff,
    answer_eq_empty_iff, account_runFrom source input, exists_front source input, rfl,
    fun w seed h => ?_⟩
  rw [run, h]

/-- A rejected line, a blank one, an accepted one with a carriage return, one that is not valid
UTF-8 and an accepted one that is not reached. -/
def mixedInput : List UInt8 :=
  [100, 54, 42, 54, 10, 32, 10, 100, 49, 13, 10, 255, 10, 100, 49]

theorem runFrom_one_roller_mixedInput :
    Seed.parse "007" = .ok 7 ∧
    run (some "007") Expression.oddSamples mixedInput = runFrom (Seeded.ofSeed 7) mixedInput ∧
    Line.texts (Line.cut mixedInput) = ["d6*6", " ", "d1"] ∧
    (runFrom (Seeded.ofSeed 7) mixedInput).errors = rejectedLine ++ undecodedLine ∧
    (runFrom (Seeded.ofSeed 7) mixedInput).code = 1 := by
  have hseed : Seed.parse "007" = .ok 7 := by cbv
  have htexts : Line.texts (Line.cut mixedInput) = ["d6*6", " ", "d1"] := by cbv
  obtain ⟨-, -, -, -, -, -, hrun⟩ := runFrom_one_roller Expression.oddSamples mixedInput
  obtain ⟨-, -, -, haccount, -⟩ := runFrom_one_roller (Seeded.ofSeed 7) mixedInput
  refine ⟨hseed, hrun _ _ hseed, htexts, ?_, ?_⟩
  · rw [haccount.errors, htexts]
    cbv
  · rw [haccount.code]
    cbv

end DiceSum.Session
