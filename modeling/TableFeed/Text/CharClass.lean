import TableFeed.Text.Alphabetic
import TableFeed.Text.Numeric

/-!
# Classes of characters in a command

Commands are made of names, words, bare values and marks. The classes below decide where each of
them ends. The null character ends a word as a blank does, but it is no blank: nothing skips it.
-/

namespace TableFeed

/-- The characters with the Unicode property White_Space. -/
def CharSet.whiteSpace : CharSet where
  ranges := [
    (0x9, 0xd), (0x20, 0x20), (0x85, 0x85), (0xa0, 0xa0), (0x1680, 0x1680), (0x2000, 0x200a),
    (0x2028, 0x2029), (0x202f, 0x202f), (0x205f, 0x205f), (0x3000, 0x3000)
  ]

/-- The quotation mark around a quoted value. -/
abbrev quoteMark : Char := '\x27'

/-- A blank may stand between any two tokens of a command. -/
def isBlank (character : Char) : Bool :=
  CharSet.whiteSpace.contains character

/-- A letter may begin a name. -/
def isLetter (character : Char) : Bool :=
  CharSet.alphabetic.contains character

/-- A letter or digit may continue a name. -/
def isLetterOrDigit (character : Char) : Bool :=
  isLetter character || CharSet.numeric.contains character

/-- A word ends before a blank or a null character. -/
def endsWord (character : Char) : Bool :=
  isBlank character || character == '\x00'

/-- A bare value ends where a word does, and before a quotation mark, a comma or a parenthesis. -/
def endsValue (character : Char) : Bool :=
  endsWord character || character == quoteMark || character == ',' || character == '('
    || character == ')'

end TableFeed
