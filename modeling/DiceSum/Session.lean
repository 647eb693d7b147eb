import DiceSum.Line
import DiceSum.Roller
import DiceSum.Seed
import DiceSum.Source.Seeded

/-!
# Interactive sessions

A session prompts for notations and rolls them, one per line, against one source. A line with
nothing between the blanks at its ends is passed over. A rejected notation is reported on the error
output and the session goes on; a line that is not valid UTF-8 ends it.

## Main definitions

* `DiceSum.Session.Reply` — what one line is answered.
* `DiceSum.Session.answer`, `DiceSum.Session.answer?`, `DiceSum.Session.answers` — the answers to a
  line, to a line as bytes and to all lines.
* `DiceSum.Session.lastReport`, `DiceSum.Session.exitCode` — the end of a session.
* `DiceSum.Session.Transcript` — what a whole session writes, and its exit code.
* `DiceSum.Session.run` — the session for a written seed and an input.
-/

namespace DiceSum.Session

/-- What is written in answer to a line. -/
structure Reply where
  output : String
  errors : String
  deriving DecidableEq, Repr

/-- What a session writes in all, and its exit code. -/
structure Transcript where
  output : String
  errors : String
  code : Nat
  deriving DecidableEq, Repr

/-- What is written before each line is read. -/
def prompt : String := "> "

/-- The report of a fault on the error output. -/
def report (fault : String) : String := "Error: " ++ fault ++ "\n"

/-- The fault of a line that is not valid UTF-8. -/
def unreadableLine : String :=
  "Error \x7b kind: InvalidData, message: \"stream did not contain valid UTF-8\" \x7d"

/-- The fault of a seed that cannot be read. -/
def unreadableSeed (fault : Seed.Fault) : String :=
  "ParseIntError \x7b kind: " ++ fault.text ++ " \x7d"

variable {σ : Type} [Source σ]

/-- The answer to a line. -/
def answer (line : String) : StateM (Roller σ) Reply :=
  if Text.trim line.toList = [] then pure ⟨"", ""⟩
  else do
    match ← Roller.roll line with
    | .ok r => return ⟨r.text ++ "\n", ""⟩
    | .error e => return ⟨"", report e.message⟩

/-- The answer to a line as it is found in the input, if it can be read. -/
def answer? (bytes : List UInt8) : StateM (Roller σ) (Option Reply) :=
  match Line.text? bytes with
  | none => return none
  | some line => some <$> answer line

/-- The answers to the lines of an input, up to the first that cannot be read, and whether all of
them could be read. -/
def answers : List (List UInt8) → StateM (Roller σ) (List Reply × Bool)
  | [] => return ([], true)
  | bytes :: lines => do
    match ← answer? bytes with
    | none => return ([], false)
    | some reply =>
      let (replies, complete) ← answers lines
      return (reply :: replies, complete)

/-- The last report of a session, which says why it has ended before its input. -/
def lastReport (complete : Bool) : String := if complete then "" else report unreadableLine

/-- The exit code of a session. -/
def exitCode (complete : Bool) : Nat := if complete then 0 else 1

/-- What is written in a session with these answers. -/
def transcript (replies : List Reply) (complete : Bool) : Transcript where
  output := prompt ++ String.join (replies.map fun r => r.output ++ prompt)
  errors := String.join (replies.map Reply.errors) ++ lastReport complete
  code := exitCode complete

/-- What is written in place of a session if its seed cannot be read. -/
def refusal (fault : Seed.Fault) : Transcript := ⟨"", report (unreadableSeed fault), 1⟩

/-- The session over an input. -/
def runFrom (source : σ) (input : List UInt8) : Transcript :=
  let ((replies, complete), _) := answers (Line.cut input) (Roller.start source)
  transcript replies complete

/-- The session over an input with the source of the written seed, or with the source `unseeded` if
no seed is given. -/
def run (seed : Option String) (unseeded : σ) (input : List UInt8) : Transcript :=
  match seed with
  | none => runFrom unseeded input
  | some s =>
    match Seed.parse s with
    | .ok seed => runFrom (Seeded.ofSeed seed) input
    | .error fault => refusal fault

end DiceSum.Session
