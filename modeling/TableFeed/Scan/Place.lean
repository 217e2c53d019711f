import TableFeed.Token

/-!
# Places in a command

The grammar of commands is a graph. Its nodes are the places between two tokens of a command, and
each place has a goal: what kind of token is looked for there, and to which place that token leads.
-/

namespace TableFeed

/-- The places between two tokens of a command. -/
inductive Place
  | start
  | allColumns
  | sourceWord
  | sourceTable
  | filterWord
  | filterColumn
  | filterEqual
  | filterValue
  | updateTable
  | setWord
  | changeColumn
  | changeEqual
  | changeValue
  | afterChange
  | intoWord
  | insertTable
  | columnsOpen
  | column
  | afterColumn
  | valuesWord
  | valuesOpen
  | rowValue
  | afterRowValue
  | bridgeWord
  | bridgeAddress
  | finish
  deriving DecidableEq

/-- What is looked for at a place, and the place behind it. A command and a bridge action are one
of several words, which lead to different places. -/
inductive Goal
  | command
  | bridgeAction
  | keyword (kind : Token.Kind) (next : Place)
  | name (next : Place)
  | mark (symbol : Char) (kind : Token.Kind) (next : Place)
  | value (next : Place)
  | separator (item closed : Place)
  | commaOrKeyword (item : Place) (kind : Token.Kind) (next : Place)
  | nothing
  deriving DecidableEq

/-- The goal of each place. -/
def Place.goal : Place → Goal
  | start => .command
  | allColumns => .mark '*' .star sourceWord
  | sourceWord => .keyword .fromWord sourceTable
  | sourceTable => .name filterWord
  | filterWord => .keyword .whereWord filterColumn
  | filterColumn => .name filterEqual
  | filterEqual => .mark '=' .equal filterValue
  | filterValue => .value finish
  | updateTable => .name setWord
  | setWord => .keyword .set changeColumn
  | changeColumn => .name changeEqual
  | changeEqual => .mark '=' .equal changeValue
  | changeValue => .value afterChange
  | afterChange => .commaOrKeyword changeColumn .whereWord filterColumn
  | intoWord => .keyword .into insertTable
  | insertTable => .name columnsOpen
  | columnsOpen => .mark '(' .leftParen column
  | column => .name afterColumn
  | afterColumn => .separator column valuesWord
  | valuesWord => .keyword .values valuesOpen
  | valuesOpen => .mark '(' .leftParen rowValue
  | rowValue => .value afterRowValue
  | afterRowValue => .separator rowValue finish
  | bridgeWord => .bridgeAction
  | bridgeAddress => .value finish
  | finish => .nothing

/-- The words that begin a command, with the places they lead to. -/
def commandWords : List (Token.Kind × Place) :=
  [(.help, .finish), (.status, .finish), (.stop, .finish), (.start, .finish),
    (.select, .allColumns), (.subscribe, .allColumns), (.unsubscribe, .sourceWord),
    (.insert, .intoWord), (.update, .updateTable), (.delete, .sourceWord), (.mysql, .bridgeWord)]

/-- The words that name a bridge action, with the places they lead to. -/
def bridgeWords : List (Token.Kind × Place) :=
  [(.connect, .bridgeAddress), (.disconnect, .finish), (.subscribe, .finish),
    (.unsubscribe, .finish)]

end TableFeed
