import TableFeed.Text.Literal

/-!
# JSON values and how they are written

JSON text is spread over lines with a margin of two spaces for each level. In strings only quotation
marks, backslashes and control characters below the space are escaped.
-/

namespace TableFeed

/-- A JSON value without numbers and truth values. -/
inductive JsonValue
  | null
  | text (value : String)
  | list (items : List JsonValue)
  | object (members : List (String × JsonValue))

namespace JsonValue

/-- How a character is written in a JSON string. -/
def stringCharacter (character : Char) : String :=
  match character with
  | '"' => "\\\""
  | '\\' => "\\\\"
  | '\x08' => "\\b"
  | '\t' => "\\t"
  | '\n' => "\\n"
  | '\x0c' => "\\f"
  | '\r' => "\\r"
  | _ =>
      if character.toNat < 0x10 then "\\u000" ++ hexadecimal character.toNat
      else if character.toNat < 0x20 then "\\u00" ++ hexadecimal character.toNat
      else character.toString

/-- The JSON string of a text. -/
def string (text : String) : String :=
  "\"" ++ String.join (text.toList.map stringCharacter) ++ "\""

/-- The margin of what stands inside something at the given margin. -/
def innerMargin (margin : String) : String :=
  margin ++ "  "

mutual

/-- A value over several lines, of which all but the first begin with the margin. -/
def spread (margin : String) : JsonValue → String
  | null => "null"
  | text value => string value
  | list [] => "[]"
  | list items => "[\n" ++ itemsSpread (innerMargin margin) items ++ "\n" ++ margin ++ "]"
  | object [] => "\x7b\x7d"
  | object members =>
      "\x7b\n" ++ membersSpread (innerMargin margin) members ++ "\n" ++ margin ++ "\x7d"

/-- The items of a list, each on lines of its own. -/
def itemsSpread (margin : String) : List JsonValue → String
  | [] => ""
  | [item] => margin ++ item.spread margin
  | item :: later => margin ++ item.spread margin ++ ",\n" ++ itemsSpread margin later

/-- The members of an object, each on lines of its own. -/
def membersSpread (margin : String) : List (String × JsonValue) → String
  | [] => ""
  | [(key, value)] => margin ++ string key ++ ": " ++ value.spread margin
  | (key, value) :: later =>
      margin ++ string key ++ ": " ++ value.spread margin ++ ",\n" ++ membersSpread margin later

end

/-- The JSON text of a value. -/
def write (value : JsonValue) : String :=
  value.spread ""

end JsonValue

end TableFeed
