/-!
# Tokens of a command

A command is a sequence of tokens. Each token has a kind and the text it was read from. The last
token of a scan has the kind `endOfInput` and no text, and a token of the kind `error` carries a
message in place of its text.
-/

namespace TableFeed

namespace Token

/-- The kinds of tokens. Commands never hold the kinds `create`, `table`, `quote` and `blank`:
those are reserved. -/
inductive Kind
  | error | endOfInput
  | help | status | stop | start
  | create | table | insert | into | values | update | set | delete | fromWord | select
  | subscribe | unsubscribe | whereWord
  | mysql | connect | disconnect
  | star | equal | leftParen | rightParen | comma | quote | blank
  | name | value | string
  deriving DecidableEq

namespace Kind

/-- All kinds, in the order of their declaration. -/
def all : List Kind :=
  [error, endOfInput, help, status, stop, start, create, table, insert, into, values, update, set,
    delete, fromWord, select, subscribe, unsubscribe, whereWord, mysql, connect, disconnect, star,
    equal, leftParen, rightParen, comma, quote, blank, name, value, string]

/-- What a kind is called in messages. Keywords and marks are called by their only spelling. -/
def spelling : Kind → String
  | error => "error"
  | endOfInput => "EOF"
  | help => "help"
  | status => "status"
  | stop => "stop"
  | start => "start"
  | create => "create"
  | table => "table"
  | insert => "insert"
  | into => "into"
  | values => "values"
  | update => "update"
  | set => "set"
  | delete => "delete"
  | fromWord => "from"
  | select => "select"
  | subscribe => "subscribe"
  | unsubscribe => "unsubscribe"
  | whereWord => "where"
  | mysql => "mysql"
  | connect => "connect"
  | disconnect => "disconnect"
  | star => "*"
  | equal => "="
  | leftParen => "("
  | rightParen => ")"
  | comma => ","
  | quote => "\x27"
  | blank => "white space"
  | name => "identifier"
  | value => "value"
  | string => "string"

/-- The key of a kind in JSON. It is the spelling, except where that is no key. -/
def key : Kind → String
  | endOfInput => "eof"
  | star => "star"
  | equal => "equal"
  | leftParen => "l_paren"
  | rightParen => "r_paren"
  | comma => "comma"
  | quote => "ansi_quote"
  | blank => "white_space"
  | name => "ident"
  | kind => kind.spelling

/-- The kind with the given key. -/
def ofKey? (key : String) : Option Kind :=
  all.find? fun kind => kind.key == key

end Kind

end Token

/-- A kind of token together with the text the token was read from. -/
structure Token where
  kind : Token.Kind
  text : String
  deriving DecidableEq

namespace Token

/-- The token that stands for the end of a command. -/
def ending : Token := ⟨.endOfInput, ""⟩

/-- Whether a token stands for the end of a command. -/
def isEnding (token : Token) : Bool :=
  token.kind == .endOfInput

/-- How a message shows a token: by its text, and the end of a command by its name. -/
def shown (token : Token) : String :=
  if token.isEnding then Kind.endOfInput.spelling else token.text

end Token

end TableFeed
