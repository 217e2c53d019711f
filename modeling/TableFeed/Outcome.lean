import TableFeed.Command.Grammar
import TableFeed.Command.Written

/-!
# What a command turns into

The outcome of a text holds its tokens and the command they stand for, or the reason why they stand
for none. It is shown as plain text or as JSON, with or without the tokens.
-/

namespace TableFeed

/-- How outcomes are shown. -/
structure Style where
  tokens : Bool
  json : Bool
  deriving DecidableEq

/-- The tokens of a text, and the command or the reason why there is none. -/
structure Outcome where
  tokens : List Token
  result : Except CommandError Command

namespace Outcome

/-- The outcome of a text. -/
def ofText (text : String) : Outcome where
  tokens := tokensOf text
  result := Command.parse text

/-- Whether the text stands for a command. -/
def isCommand (outcome : Outcome) : Bool :=
  match outcome.result with
  | .ok _ => true
  | .error _ => false

/-- The member of a JSON object that shows the result. -/
def resultMember (outcome : Outcome) : String × JsonValue :=
  match outcome.result with
  | .ok command => ("request", command.json)
  | .error reason => ("error", .text reason.message)

/-- The JSON value of an outcome. -/
def json (outcome : Outcome) (withTokens : Bool) : JsonValue :=
  if withTokens then
    .object [outcome.resultMember, ("tokens", .list (outcome.tokens.map Token.json))]
  else .object [outcome.resultMember]

/-- The line that shows a token. -/
def tokenLine (token : Token) : String :=
  token.kind.spelling ++ "  " ++ token.text ++ "\n"

/-- The line that shows the result, without a line break. -/
def resultLine (outcome : Outcome) : String :=
  match outcome.result with
  | .ok command => command.kind.title ++ ": " ++ command.term.line
  | .error reason => "error: " ++ reason.message

/-- An outcome as plain text. -/
def plain (outcome : Outcome) (withTokens : Bool) : String :=
  if withTokens then String.join (outcome.tokens.map tokenLine) ++ outcome.resultLine
  else outcome.resultLine

/-- An outcome as text in the given style. -/
def render (outcome : Outcome) (style : Style) : String :=
  if style.json then (outcome.json style.tokens).write else outcome.plain style.tokens

end Outcome

end TableFeed
