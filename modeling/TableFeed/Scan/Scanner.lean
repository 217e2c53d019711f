import TableFeed.Scan.Cursor
import TableFeed.Scan.Reading

/-!
# Scanning a command

A scanner hands out the tokens of a command one at a time. It stops at the end of the text or at
the first fault, and what it hands out last is always the token for the end of the command. The
main statement says that each token handed out brings the scanner nearer to its end, so that the
list of all tokens exists.
-/

namespace TableFeed

/-- A token with the number of bytes in front of its text. An error token has no text of its own in
the command and so stands nowhere. -/
structure PlacedToken where
  token : Token
  position : Option Nat
  deriving DecidableEq

/-- What a scanner does next: read at a place, report the end after a fault, or nothing. -/
inductive Phase
  | reading (place : Place)
  | closing
  | finished
  deriving DecidableEq

/-- A scan that may be under way: the text still to be read, and what happens next. -/
structure Scanner where
  cursor : Cursor
  phase : Phase

namespace Scanner

/-- The scanner in front of a command. -/
def ofText (text : String) : Scanner :=
  ⟨.atStart text, .reading .start⟩

/-- The token for the end of a command, at a cursor. -/
def endingAt (cursor : Cursor) : PlacedToken :=
  ⟨.ending, some cursor.position⟩

/-- The token made of some characters behind a cursor. -/
def tokenAt (cursor : Cursor) (kind : Token.Kind) (lexeme : List Char) : PlacedToken :=
  ⟨⟨kind, String.ofList lexeme⟩, some cursor.position⟩

/-- The token that reports a fault. -/
def errorToken (fault : Fault) (lexeme : List Char) : PlacedToken :=
  ⟨⟨.error, fault.message (String.ofList lexeme)⟩, none⟩

/-- Read at a place, with the cursor in front of a character that is no blank. -/
def readAt (place : Place) (cursor : Cursor) : PlacedToken × Scanner :=
  match place.goal.read cursor.rest with
  | .token kind lexeme next =>
      (tokenAt cursor kind lexeme, ⟨cursor.advance lexeme.length, .reading next⟩)
  | .fault fault lexeme =>
      (errorToken fault lexeme, ⟨cursor.advance lexeme.length, .closing⟩)
  | .exhausted => (endingAt cursor, ⟨cursor, .finished⟩)

/-- The next token and the scanner behind it. -/
def next? (scanner : Scanner) : Option (PlacedToken × Scanner) :=
  match scanner.phase with
  | .reading place => some (readAt place scanner.cursor.skipBlanks)
  | .closing => some (endingAt scanner.cursor, ⟨scanner.cursor, .finished⟩)
  | .finished => none

/-- A bound on the number of tokens that a scanner still hands out. -/
def remaining (scanner : Scanner) : Nat :=
  match scanner.phase with
  | .reading _ => scanner.cursor.rest.length + 2
  | .closing => 1
  | .finished => 0

theorem next?_remaining_lt {scanner later : Scanner} {token : PlacedToken}
    (step : scanner.next? = some (token, later)) : later.remaining < scanner.remaining := by
  obtain ⟨cursor, phase⟩ := scanner
  cases phase with
  | finished => simp [next?] at step
  | closing =>
      simp only [next?, Option.some.injEq, Prod.mk.injEq] at step
      obtain ⟨-, rfl⟩ := step
      simp [remaining]
  | reading place =>
      have shorter : cursor.skipBlanks.rest.length ≤ cursor.rest.length := by
        rw [Cursor.skipBlanks_rest]
        exact (List.dropWhile_sublist _).length_le
      simp only [next?, readAt, Option.some.injEq] at step
      split at step
      · rename_i lexeme next reading
        obtain ⟨-, rfl⟩ := Prod.mk.inj step
        have consumed : lexeme ≠ [] := by
          have advances := place.goal.read_advances cursor.skipBlanks.rest
          rwa [reading] at advances
        have available := Goal.text_ne_nil_of_read reading
        have lexemeLength := List.length_pos_iff.mpr consumed
        have restLength := List.length_pos_iff.mpr available
        simp only [remaining, Cursor.advance_rest, List.length_drop]
        omega
      · obtain ⟨-, rfl⟩ := Prod.mk.inj step
        simp [remaining]
      · obtain ⟨-, rfl⟩ := Prod.mk.inj step
        simp [remaining]

/-- All tokens that a scanner still hands out. -/
def tokens (scanner : Scanner) : List PlacedToken :=
  match _step : scanner.next? with
  | none => []
  | some (token, later) => token :: later.tokens
termination_by scanner.remaining
decreasing_by exact next?_remaining_lt _step

/-- Ask a scanner for the given number of tokens, whether or not it still has any. -/
def pull : Nat → Scanner → List (Option PlacedToken) × Scanner
  | 0, scanner => ([], scanner)
  | count + 1, scanner =>
      match scanner.next? with
      | none =>
          let (pulled, last) := pull count scanner
          (none :: pulled, last)
      | some (token, later) =>
          let (pulled, last) := pull count later
          (some token :: pulled, last)

end Scanner

/-- The tokens of a command, with their positions. -/
def scan (text : String) : List PlacedToken :=
  (Scanner.ofText text).tokens

/-- The tokens of a command. -/
def tokensOf (text : String) : List Token :=
  (scan text).map PlacedToken.token

end TableFeed
