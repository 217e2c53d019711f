import TableFeed.Text.CharClass

/-!
# Quoted values

A quoted value stands between two quotation marks, and each quotation mark inside it is written
twice. So it ends at the first quotation mark after the opening one that has no neighbour to pair
with.
-/

namespace TableFeed.Quoted

/-- Write each quotation mark twice. -/
def double : List Char → List Char
  | [] => []
  | character :: later =>
      if character = quoteMark then quoteMark :: quoteMark :: double later
      else character :: double later

/-- Write a value between quotation marks. -/
def quote (value : List Char) : List Char :=
  quoteMark :: double value ++ [quoteMark]

/-- Read each pair of quotation marks as one, from left to right. -/
def halve : List Char → List Char
  | '\x27' :: '\x27' :: later => quoteMark :: halve later
  | character :: later => character :: halve later
  | [] => []

/-- What stands between an opening and a closing quotation mark, if the text has both. -/
def inner? : List Char → Option (List Char)
  | '\x27' :: later => if later.getLast? = some quoteMark then some later.dropLast else none
  | _ => none

/-- The value of a quoted text. A text that is not enclosed is taken as it stands, apart from its
paired quotation marks. -/
def unquote (text : List Char) : List Char :=
  halve ((inner? text).getD text)

/-- The part of a text up to and including the first quotation mark that pairs with no other. -/
def closed? : List Char → Option (List Char)
  | '\x27' :: '\x27' :: later => (closed? later).map fun part => quoteMark :: quoteMark :: part
  | '\x27' :: _ => some [quoteMark]
  | character :: later => (closed? later).map (character :: ·)
  | [] => none

end TableFeed.Quoted
