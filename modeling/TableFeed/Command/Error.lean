import TableFeed.Token

/-!
# Why a sequence of tokens is no command

Either the text already held a fault, or a token stands where another is expected, or the two lists
of an insertion differ in length.
-/

namespace TableFeed

/-- What a command may need at some place. -/
inductive Expected
  | command
  | token (kind : Token.Kind)
  | table
  | column
  | value
  | separator
  | address
  | ending
  deriving DecidableEq

/-- What a message calls the thing expected. -/
def Expected.text : Expected → String
  | command => "command"
  | token kind => kind.spelling
  | table => "table name"
  | column => "column name"
  | value => "value"
  | separator => ", or )"
  | address => "connection address"
  | ending => "end of input"

/-- The reasons why a sequence of tokens is no command. -/
inductive CommandError
  | lexical (message : String)
  | unexpected (expected : Expected) (found : String)
  | noBridgeAction (found : String)
  | valueCount (columns values : Nat)
  deriving DecidableEq

/-- The message for a reason. -/
def CommandError.message : CommandError → String
  | lexical message => message
  | unexpected expected found => "expected " ++ expected.text ++ ", but got: " ++ found
  | noBridgeAction found => "invalid bridge request: " ++ found
  | valueCount columns values => columns.repr ++ " columns but " ++ values.repr ++ " values"

end TableFeed
