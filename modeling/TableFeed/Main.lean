import TableFeed.Invocation

/-!
# The program

The program does what its arguments ask for. A session answers each line as soon as it is read.
-/

namespace TableFeed

/-- Read up to the end of a line. At the end of the input there is no line. -/
partial def readLine (input : IO.FS.Stream) (line : Array UInt8) : IO (Option (List UInt8)) := do
  let bytes ← input.read 1
  match bytes.toList with
  | [] => return if line.isEmpty then none else some line.toList
  | byte :: _ =>
      if byte = Session.lineBreak then return some line.toList
      else readLine input (line.push byte)

/-- Prompt for lines and answer them until the session ends. -/
partial def converse (style : Style) (input output : IO.FS.Stream) : IO UInt32 := do
  output.putStr Session.prompt
  output.flush
  match ← readLine input #[] with
  | none => return 0
  | some line =>
      match Session.turn style line with
      | .goOn answer =>
          output.putStr answer
          converse style input output
      | .stop exitCode => return exitCode.toUInt32

/-- Do what the arguments ask for, and answer with the exit code. -/
def runProgram (arguments : List String) : IO UInt32 := do
  let output ← IO.getStdout
  match Invocation.ofArguments arguments with
  | .session style =>
      output.putStr Session.banner
      converse style (← IO.getStdin) output
  | invocation =>
      let transcript := invocation.run []
      output.putStr transcript.output
      output.flush
      return transcript.exitCode.toUInt32

end TableFeed

/-- The program's entry. -/
def main (arguments : List String) : IO UInt32 :=
  TableFeed.runProgram arguments
