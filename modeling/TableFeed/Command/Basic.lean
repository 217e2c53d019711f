/-!
# Commands

A command asks for something: about the server itself, about the rows of a table, or about the
bridge to a database. Columns appear in it together with the value to look for or to store.
-/

namespace TableFeed

/-- A column together with a value. -/
structure Entry where
  column : String
  value : String
  deriving DecidableEq

/-- What the bridge to a database is asked to do. -/
inductive BridgeAction
  | connect (address : String)
  | disconnect
  | subscribe
  | unsubscribe
  deriving DecidableEq

/-- The commands. -/
inductive Command
  | help
  | status
  | stop
  | start
  | select (table : String) (filter : Option Entry)
  | subscribe (table : String) (filter : Option Entry)
  | unsubscribe (table : String)
  | insert (table : String) (row : List Entry)
  | update (table : String) (changes : List Entry) (filter : Option Entry)
  | delete (table : String) (filter : Option Entry)
  | bridge (action : BridgeAction)
  deriving DecidableEq

namespace Command

/-- The kinds of commands. Each bridge action makes a kind of its own. -/
inductive Kind
  | help | status | stop | start
  | select | subscribe | unsubscribe | insert | update | delete
  | bridgeConnect | bridgeDisconnect | bridgeSubscribe | bridgeUnsubscribe
  deriving DecidableEq

namespace Kind

/-- All kinds, in the order of their declaration. -/
def all : List Kind :=
  [help, status, stop, start, select, subscribe, unsubscribe, insert, update, delete,
    bridgeConnect, bridgeDisconnect, bridgeSubscribe, bridgeUnsubscribe]

/-- The words that begin a command of this kind. -/
def title : Kind → String
  | help => "help"
  | status => "status"
  | stop => "stop"
  | start => "start"
  | select => "select"
  | subscribe => "subscribe"
  | unsubscribe => "unsubscribe"
  | insert => "insert"
  | update => "update"
  | delete => "delete"
  | bridgeConnect => "mysql connect"
  | bridgeDisconnect => "mysql disconnect"
  | bridgeSubscribe => "mysql subscribe"
  | bridgeUnsubscribe => "mysql unsubscribe"

end Kind

/-- The kind of a command. -/
def kind : Command → Kind
  | help => .help
  | status => .status
  | stop => .stop
  | start => .start
  | select _ _ => .select
  | subscribe _ _ => .subscribe
  | unsubscribe _ => .unsubscribe
  | insert _ _ => .insert
  | update _ _ _ => .update
  | delete _ _ => .delete
  | bridge (.connect _) => .bridgeConnect
  | bridge .disconnect => .bridgeDisconnect
  | bridge .subscribe => .bridgeSubscribe
  | bridge .unsubscribe => .bridgeUnsubscribe

/-- The table that a command is about, if it is about one. -/
def table? : Command → Option String
  | select table _ | subscribe table _ | unsubscribe table | insert table _ | update table _ _
  | delete table _ => some table
  | help | status | stop | start | bridge _ => none

end Command

end TableFeed
