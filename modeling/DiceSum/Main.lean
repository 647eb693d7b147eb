import DiceSum.Session

/-!
# The interactive program

The program reads lines from standard input and answers each as soon as it is read. Its first
argument, if there is one, is the seed of the session; without it the seed is taken at random. What
is written, and with which code the program ends, is said by `DiceSum.Session`.
-/

namespace DiceSum.Program

/-- Reads up to the next newline, or to the end of the input. -/
partial def readRawLine (stdin : IO.FS.Stream) (bytes : ByteArray) : IO ByteArray := do
  let piece ← stdin.read 1
  let bytes := bytes ++ piece
  if piece.isEmpty || piece.toList.contains Line.newline then return bytes
  readRawLine stdin bytes

/-- Ends a session. -/
def finish (complete : Bool) : IO UInt32 := do
  (← IO.getStderr).putStr (Session.lastReport complete)
  return (Session.exitCode complete).toUInt32

/-- Prompts for a line, answers it and goes on. -/
partial def converse (roller : Roller Seeded) : IO UInt32 := do
  let stdout ← IO.getStdout
  stdout.putStr Session.prompt
  stdout.flush
  let raw ← readRawLine (← IO.getStdin) ByteArray.empty
  match Line.cut raw.toList with
  | [] => finish true
  | bytes :: _ =>
    match Session.answer? bytes roller with
    | (none, _) => finish false
    | (some reply, roller) =>
      stdout.putStr reply.output
      (← IO.getStderr).putStr reply.errors
      converse roller

/-- A seed that nobody chose. -/
def randomSeed : IO UInt64 := do
  let bytes ← IO.getRandomBytes 8
  return bytes.toList.foldl (fun n b => n * 256 + b.toUInt64) 0

end DiceSum.Program

open DiceSum in
/-- Runs a session with the seed that is given as the first argument. -/
def main (args : List String) : IO UInt32 := do
  match args with
  | [] => Program.converse (Roller.start (Seeded.ofSeed (← Program.randomSeed)))
  | seed :: _ =>
    match Seed.parse seed with
    | .ok seed => Program.converse (Roller.start (Seeded.ofSeed seed))
    | .error fault =>
      let t := Session.refusal fault
      (← IO.getStderr).putStr t.errors
      return t.code.toUInt32
