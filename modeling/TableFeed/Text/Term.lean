import TableFeed.Text.Literal

/-!
# Terms and how they are written

A term shows a value as it was built: a name, a text, a name applied to a term, a record with
labelled fields, or a list. It is written on one line, or spread out with one field or item on each
line.
-/

namespace TableFeed

/-- A value in the form in which it is shown. -/
inductive Term
  | name (word : String)
  | text (value : String)
  | apply (head : String) (argument : Term)
  | record (head : String) (fields : List (String × Term))
  | list (items : List Term)

namespace Term

/-- A number is shown by its decimal digits. -/
def number (value : Nat) : Term :=
  .name value.repr

/-- An optional value is shown by `Some` with the value, or by `None`. -/
def optional {α : Type} (term : α → Term) : Option α → Term
  | none => .name "None"
  | some value => .apply "Some" (term value)

mutual

/-- A term on one line. -/
def line : Term → String
  | name word => word
  | text value => literal value
  | apply head argument => head ++ "(" ++ argument.line ++ ")"
  | record head fields => head ++ " \x7b " ++ fieldsLine fields ++ " \x7d"
  | list items => "[" ++ itemsLine items ++ "]"

/-- The fields of a record on one line. -/
def fieldsLine : List (String × Term) → String
  | [] => ""
  | [(label, value)] => label ++ ": " ++ value.line
  | (label, value) :: later => label ++ ": " ++ value.line ++ ", " ++ fieldsLine later

/-- The items of a list on one line. -/
def itemsLine : List Term → String
  | [] => ""
  | [item] => item.line
  | item :: later => item.line ++ ", " ++ itemsLine later

end

/-- The margin of what stands inside something at the given margin. -/
def innerMargin (margin : String) : String :=
  margin ++ "    "

mutual

/-- A term over several lines, of which all but the first begin with the margin. -/
def spread (margin : String) : Term → String
  | name word => word
  | text value => literal value
  | apply head argument =>
      head ++ "(\n" ++ innerMargin margin ++ argument.spread (innerMargin margin) ++ ",\n"
        ++ margin ++ ")"
  | record head fields =>
      head ++ " \x7b\n" ++ fieldsSpread (innerMargin margin) fields ++ margin ++ "\x7d"
  | list [] => "[]"
  | list items => "[\n" ++ itemsSpread (innerMargin margin) items ++ margin ++ "]"

/-- The fields of a record, each on lines of its own. -/
def fieldsSpread (margin : String) : List (String × Term) → String
  | [] => ""
  | (label, value) :: later =>
      margin ++ label ++ ": " ++ value.spread margin ++ ",\n" ++ fieldsSpread margin later

/-- The items of a list, each on lines of its own. -/
def itemsSpread (margin : String) : List Term → String
  | [] => ""
  | item :: later => margin ++ item.spread margin ++ ",\n" ++ itemsSpread margin later

end

end Term

end TableFeed
