import TableFeed.Text.CharClass

/-!
# A cursor in a command

A cursor stands between two characters of a command. It knows how many bytes lie before it, in the
UTF-8 form of the command, and which characters are still to be read. It only ever moves forward,
over whole characters.
-/

namespace TableFeed

/-- The number of bytes of some characters in UTF-8. -/
def byteLength : List Char → Nat
  | [] => 0
  | character :: later => character.utf8Size + byteLength later

/-- A place between two characters of a command. -/
structure Cursor where
  position : Nat
  rest : List Char

namespace Cursor

/-- The cursor in front of the first character. -/
def atStart (text : String) : Cursor :=
  ⟨0, text.toList⟩

/-- Move over the given number of characters, or to the end if there are fewer. -/
def advance (cursor : Cursor) (count : Nat) : Cursor where
  position := cursor.position + byteLength (cursor.rest.take count)
  rest := cursor.rest.drop count

/-- Move to the first character that is no blank. -/
def skipBlanks (cursor : Cursor) : Cursor :=
  cursor.advance (cursor.rest.takeWhile isBlank).length

theorem advance_rest (cursor : Cursor) (count : Nat) :
    (cursor.advance count).rest = cursor.rest.drop count :=
  rfl

theorem skipBlanks_rest (cursor : Cursor) :
    cursor.skipBlanks.rest = cursor.rest.dropWhile isBlank := by
  simp only [skipBlanks, advance_rest]
  induction cursor.rest with
  | nil => rfl
  | cons character later ih =>
      by_cases blank : isBlank character = true
      · simpa [blank] using ih
      · simp [blank]

end Cursor

end TableFeed
