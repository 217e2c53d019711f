import TableFeed.Command.Basic
import TableFeed.Text.JsonValue
import TableFeed.Text.Term
import TableFeed.Token

/-!
# How commands are shown

A command is shown as a term, with its parts in the order in which it has them, or as a JSON value,
with the keys of each object in alphabetical order.
-/

namespace TableFeed

namespace Entry

/-- The term of an entry. -/
def term (entry : Entry) : Term :=
  .record "ColumnValue" [("column", .text entry.column), ("value", .text entry.value)]

/-- The JSON value of an entry. -/
def json (entry : Entry) : JsonValue :=
  .object [("column", .text entry.column), ("value", .text entry.value)]

/-- The JSON value of an entry that may be missing. -/
def optionalJson : Option Entry → JsonValue
  | none => .null
  | some entry => entry.json

end Entry

namespace BridgeAction

/-- The term of a bridge action. -/
def term : BridgeAction → Term
  | connect address => .record "Connect" [("address", .text address)]
  | disconnect => .name "Disconnect"
  | subscribe => .name "Subscribe"
  | unsubscribe => .name "Unsubscribe"

/-- The JSON value of a bridge action. -/
def json : BridgeAction → JsonValue
  | connect address => .object [("action", .text "connect"), ("address", .text address)]
  | disconnect => .object [("action", .text "disconnect")]
  | subscribe => .object [("action", .text "subscribe")]
  | unsubscribe => .object [("action", .text "unsubscribe")]

end BridgeAction

namespace Command

/-- The term of a command. -/
def term : Command → Term
  | help => .name "Help"
  | status => .name "Status"
  | stop => .name "Stop"
  | start => .name "Start"
  | select table filter =>
      .record "Select" [("table", .text table), ("filter", .optional Entry.term filter)]
  | subscribe table filter =>
      .record "Subscribe" [("table", .text table), ("filter", .optional Entry.term filter)]
  | unsubscribe table => .record "Unsubscribe" [("table", .text table)]
  | insert table row =>
      .record "Insert" [("table", .text table), ("values", .list (row.map Entry.term))]
  | update table changes filter =>
      .record "Update" [("table", .text table), ("values", .list (changes.map Entry.term)),
        ("filter", .optional Entry.term filter)]
  | delete table filter =>
      .record "Delete" [("table", .text table), ("filter", .optional Entry.term filter)]
  | bridge action => .record "Mysql" [("request", action.term)]

/-- The JSON value of a command about some rows of a table. -/
def filteredJson (kind table : String) (filter : Option Entry) : JsonValue :=
  .object [("filter", Entry.optionalJson filter), ("kind", .text kind), ("table", .text table)]

/-- The JSON value of a command. -/
def json : Command → JsonValue
  | help => .object [("kind", .text "help")]
  | status => .object [("kind", .text "status")]
  | stop => .object [("kind", .text "stop")]
  | start => .object [("kind", .text "start")]
  | select table filter => filteredJson "select" table filter
  | subscribe table filter => filteredJson "subscribe" table filter
  | unsubscribe table => .object [("kind", .text "unsubscribe"), ("table", .text table)]
  | insert table row =>
      .object [("kind", .text "insert"), ("table", .text table),
        ("values", .list (row.map Entry.json))]
  | update table changes filter =>
      .object [("filter", Entry.optionalJson filter), ("kind", .text "update"),
        ("table", .text table), ("values", .list (changes.map Entry.json))]
  | delete table filter => filteredJson "delete" table filter
  | bridge action => .object [("kind", .text "mysql"), ("request", action.json)]

end Command

namespace Token

/-- The JSON value of a token. -/
def json (token : Token) : JsonValue :=
  .object [("kind", .text token.kind.key), ("value", .text token.text)]

end Token

end TableFeed
