import TableFeed.Outcome

/-!
# A session at the prompt

A session reads one line after another and answers each of them on its own. It ends with the input,
at a line that asks for it, or at a line that is not UTF-8. Blanks around a command do not count, so
a carriage return in front of a line break does not count either.
-/

namespace TableFeed

/-- What was printed, and the exit code. -/
structure Transcript where
  output : String
  exitCode : Nat
  deriving DecidableEq

/-- What a session does with a line: it prints an answer and goes on, or it stops. -/
inductive Turn
  | goOn (answer : String)
  | stop (exitCode : Nat)
  deriving DecidableEq

namespace Session

/-- The line that opens a session. -/
def banner : String :=
  "pubsql REPL (type \x27.exit\x27 or \x27.quit\x27 to stop)\n"

/-- What is printed in front of each line. -/
def prompt : String :=
  "pubsql> "

/-- A text without the blanks around it. -/
def trimmed (text : List Char) : List Char :=
  ((text.dropWhile isBlank).reverse.dropWhile isBlank).reverse

/-- What a session does with a line of text. -/
def turnOfText (style : Style) (text : String) : Turn :=
  let command := String.ofList (trimmed text.toList)
  if command = ".exit" ∨ command = ".quit" then .stop 0
  else if command.isEmpty then .goOn ""
  else .goOn ((Outcome.ofText command).render style ++ "\n")

/-- What a session does with a line of bytes. -/
def turn (style : Style) (line : List UInt8) : Turn :=
  match String.fromUTF8? ⟨line.toArray⟩ with
  | some text => turnOfText style text
  | none => .stop 1

/-- The byte that ends a line. -/
def lineBreak : UInt8 := 10

/-- The lines of some bytes, without the bytes that end them. -/
def lines : List UInt8 → List (List UInt8)
  | [] => []
  | byte :: later =>
      if byte = lineBreak then [] :: lines later
      else
        match lines later with
        | [] => [[byte]]
        | line :: others => (byte :: line) :: others

/-- What a session prints from the first prompt on. -/
def turns (style : Style) : List (List UInt8) → Transcript
  | [] => ⟨prompt, 0⟩
  | line :: later =>
      match turn style line with
      | .goOn answer =>
          let rest := turns style later
          ⟨prompt ++ answer ++ rest.output, rest.exitCode⟩
      | .stop exitCode => ⟨prompt, exitCode⟩

/-- A whole session over the given input. -/
def run (style : Style) (input : List UInt8) : Transcript :=
  let rest := turns style (lines input)
  ⟨banner ++ rest.output, rest.exitCode⟩

end Session

end TableFeed
