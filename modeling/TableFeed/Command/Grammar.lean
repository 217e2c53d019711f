import TableFeed.Command.Reader

/-!
# The grammar of commands

A command begins with a word that says what kind of command it is, and the tokens behind that word
have to be used up to the end of the list.
-/

namespace TableFeed

namespace Reader

/-- Take the end of the command and answer with what was read before. -/
def finish (command : Command) : Reader Command := do
  let _ ← expect .endOfInput .ending
  return command

/-- Take what follows the word that begins a command about some rows of a table. -/
def tableFilter : Reader (String × Option Entry) := do
  expectWord .fromWord
  return (← table, ← filter)

/-- Take what follows the word of an insertion. The columns and the values are counted before
anything behind them is looked at. -/
def insertion : Reader Command := do
  expectWord .into
  let table ← table
  expectWord .leftParen
  let columns ← items (Token.textOf .name .column)
  expectWord .values
  expectWord .leftParen
  let values ← items Token.valueText
  if columns.length ≠ values.length then
    throw (.valueCount columns.length values.length)
  finish (.insert table (List.zipWith Entry.mk columns values))

/-- Take what follows the word of an update. -/
def change : Reader Command := do
  let table ← table
  expectWord .set
  let changes ← entries
  finish (.update table changes (← filter))

/-- Take what follows the bridge's name. -/
def bridge : Reader Command := do
  let token ← one Token.checked
  match token.kind with
  | .connect => finish (.bridge (.connect (← expect .value .address)))
  | .disconnect => finish (.bridge .disconnect)
  | .subscribe => finish (.bridge .subscribe)
  | .unsubscribe => finish (.bridge .unsubscribe)
  | _ => throw (.noBridgeAction token.shown)

/-- Take a whole command. -/
def command : Reader Command := do
  let token ← one Token.checked
  match token.kind with
  | .help => finish .help
  | .status => finish .status
  | .stop => finish .stop
  | .start => finish .start
  | .select => do
      expectWord .star
      let (table, filter) ← tableFilter
      finish (.select table filter)
  | .subscribe => do
      expectWord .star
      let (table, filter) ← tableFilter
      finish (.subscribe table filter)
  | .unsubscribe => do
      expectWord .fromWord
      finish (.unsubscribe (← table))
  | .insert => insertion
  | .update => change
  | .delete => do
      let (table, filter) ← tableFilter
      finish (.delete table filter)
  | .mysql => bridge
  | _ => throw (.unexpected .command token.shown)

end Reader

namespace Command

/-- The command that a list of tokens stands for. -/
def ofTokens (tokens : List Token) : Except CommandError Command :=
  Reader.command.run' tokens

/-- The command that a text stands for. -/
def parse (text : String) : Except CommandError Command :=
  ofTokens (tokensOf text)

end Command

end TableFeed
