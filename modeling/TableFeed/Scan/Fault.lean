/-!
# Faults in the text of a command

A fault is the reason why a piece of text is no token. Its message names the reason and ends with
that piece of text.
-/

namespace TableFeed

/-- The reasons why a piece of text is no token. -/
inductive Fault
  | noCommand
  | noBridgeAction
  | unknownWord
  | noLetter
  | otherMark (symbol : Char)
  | noSeparator
  | noValue
  | unclosed
  deriving DecidableEq

namespace Fault

/-- How the message of a fault begins. -/
def opening : Fault → String
  | noCommand => "Invalid command: "
  | noBridgeAction => "Invalid mysql command: "
  | unknownWord => "Unexpected token: "
  | noLetter => "identifier must begin with a letter: "
  | otherMark symbol => "expected " ++ symbol.toString ++ " but got: "
  | noSeparator => "expected , or ) but got: "
  | noValue => "expected value but got: "
  | unclosed => "unterminated string: "

/-- The message of a fault found in the given text. -/
def message (fault : Fault) (text : String) : String :=
  fault.opening ++ text

end Fault

end TableFeed
