import TableFeed.Text.DefaultIgnorable
import TableFeed.Text.GraphemeExtend
import TableFeed.Text.Unprintable

/-!
# String literals

A string literal shows a text on one line between double quotation marks. Characters that could not
be told from the text around them are shown by their code point: those that extend the character
before them, those that are shown as nothing, and those that are unprintable.
-/

namespace TableFeed

/-- The digits of a number in base sixteen, in lower case. -/
def hexadecimal (number : Nat) : String :=
  String.ofList (Nat.toDigits 16 number)

/-- The halfwidth sound marks of Japanese. They extend the character before them, but they take up
room of their own and are readable as they stand. -/
def CharSet.halfwidthSoundMarks : CharSet where
  ranges := [(0xff9e, 0xff9f)]

/-- Whether a character is readable as it stands. -/
def isReadable (character : Char) : Bool :=
  CharSet.halfwidthSoundMarks.contains character
    || !(CharSet.graphemeExtend.contains character || CharSet.defaultIgnorable.contains character
      || CharSet.unprintable.contains character)

/-- How a character is written in a string literal. -/
def literalCharacter (character : Char) : String :=
  match character with
  | '"' => "\\\""
  | '\\' => "\\\\"
  | '\t' => "\\t"
  | '\r' => "\\r"
  | '\n' => "\\n"
  | '\x00' => "\\0"
  | _ =>
      if isReadable character then character.toString
      else "\\u\x7b" ++ hexadecimal character.toNat ++ "\x7d"

/-- The string literal of a text. -/
def literal (text : String) : String :=
  "\"" ++ String.join (text.toList.map literalCharacter) ++ "\""

end TableFeed
