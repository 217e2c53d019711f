import TableFeed.Scan.Fault
import TableFeed.Scan.Place
import TableFeed.Text.Quoted

/-!
# Reading one token

What is looked for at a place decides how the text there is read. The text given to these functions
begins with no blank. A reading takes some characters from the front of it, as a token or as the
text of a fault, and says at which place the next reading happens. The main statement says that a
reading that finds a token takes at least one character.
-/

namespace TableFeed

/-- The outcome of looking for a token at the front of a text. -/
inductive Reading
  | token (kind : Token.Kind) (lexeme : List Char) (next : Place)
  | fault (fault : Fault) (lexeme : List Char)
  | exhausted
  deriving DecidableEq

/-- The word at the front of a text. -/
def wordOf (text : List Char) : List Char :=
  text.takeWhile fun character => !endsWord character

/-- The bare value at the front of a text. -/
def bareValueOf (text : List Char) : List Char :=
  text.takeWhile fun character => !endsValue character

/-- Whether one of the words begins with the given letters. -/
def someBeginsWith (words : List (Token.Kind × Place)) (letters : List Char) : Bool :=
  words.any fun (kind, _) => letters.isPrefixOf kind.spelling.toList

/-- The kind spelled by a word, if it is one of the given words, and the place it leads to. -/
def findWord (words : List (Token.Kind × Place)) (word : List Char) :
    Option (Token.Kind × Place) :=
  words.find? fun (kind, _) => kind.spelling.toList == word

/-- Read a word that has to be one of the given words. -/
def readWord (words : List (Token.Kind × Place)) (text : List Char) : Reading :=
  match findWord words (wordOf text) with
  | some (kind, next) => .token kind (wordOf text) next
  | none => .fault .unknownWord (wordOf text)

/-- Read the first word of a command. A text whose first letter begins no command is refused at
that letter, and one that begins with `s` is refused at its second letter. -/
def readCommand : List Char → Reading
  | [] => .fault .noCommand []
  | ['s'] => .fault .noCommand ['s']
  | 's' :: second :: later =>
      if someBeginsWith commandWords ['s', second] then
        readWord commandWords ('s' :: second :: later)
      else .fault .noCommand ['s', second]
  | first :: later =>
      if someBeginsWith commandWords [first] then readWord commandWords (first :: later)
      else .fault .noCommand [first]

/-- Read the word after the bridge's name. -/
def readBridgeAction (first : Char) (later : List Char) : Reading :=
  if someBeginsWith bridgeWords [first] then readWord bridgeWords (first :: later)
  else .fault .noBridgeAction (first :: wordOf later)

/-- Read a name: a letter with all letters and digits behind it. -/
def readName (next : Place) (first : Char) (later : List Char) : Reading :=
  if isLetter first then .token .name (first :: later.takeWhile isLetterOrDigit) next
  else .fault .noLetter [first]

/-- Read one mark. -/
def readMark (symbol : Char) (kind : Token.Kind) (next : Place) (first : Char) : Reading :=
  if first = symbol then .token kind [first] next else .fault (.otherMark symbol) [first]

/-- Read a quoted value, given the text behind its opening quotation mark. -/
def readQuoted (next : Place) (later : List Char) : Reading :=
  match Quoted.closed? later with
  | some part => .token .string (quoteMark :: part) next
  | none => .fault .unclosed (quoteMark :: later)

/-- Read a bare or quoted value. -/
def readValue (next : Place) (first : Char) (later : List Char) : Reading :=
  if first = quoteMark then readQuoted next later
  else if endsValue first then .fault .noValue [first]
  else .token .value (first :: bareValueOf later) next

/-- Read the comma in front of another item of a list, or the parenthesis behind the last one. -/
def readSeparator (item closed : Place) (first : Char) (later : List Char) : Reading :=
  if first = ',' then .token .comma [first] item
  else if first = ')' then .token .rightParen [first] closed
  else .fault .noSeparator (first :: wordOf later)

/-- Look for what a goal says at the front of a text. Only in front of a command is the end of the
text a fault. -/
def Goal.read : Goal → List Char → Reading
  | command, text => readCommand text
  | _, [] => .exhausted
  | bridgeAction, first :: later => readBridgeAction first later
  | keyword kind next, text => readWord [(kind, next)] text
  | name next, first :: later => readName next first later
  | mark symbol kind next, first :: _ => readMark symbol kind next first
  | value next, first :: later => readValue next first later
  | separator item closed, first :: later => readSeparator item closed first later
  | commaOrKeyword item kind next, first :: later =>
      if first = ',' then .token .comma [first] item else readWord [(kind, next)] (first :: later)
  | nothing, text => .fault .unknownWord (wordOf text)

/-- A reading takes at least one character whenever it finds a token. -/
def Reading.Advances : Reading → Prop
  | token _ lexeme _ => lexeme ≠ []
  | fault _ _ | exhausted => True

theorem Token.Kind.spelling_ne_nil (kind : Token.Kind) : kind.spelling.toList ≠ [] := by
  cases kind <;> simp [spelling]

theorem spelling_of_findWord {words : List (Token.Kind × Place)} {word : List Char}
    {kind : Token.Kind} {next : Place} (found : findWord words word = some (kind, next)) :
    kind.spelling.toList = word := by
  have spelled := List.find?_some found
  exact eq_of_beq spelled

theorem readWord_advances (words : List (Token.Kind × Place)) (text : List Char) :
    (readWord words text).Advances := by
  unfold readWord
  split
  · rename_i kind next found
    exact spelling_of_findWord found ▸ kind.spelling_ne_nil
  · trivial

theorem readCommand_advances (text : List Char) : (readCommand text).Advances := by
  unfold readCommand
  split
  · trivial
  · trivial
  · split
    · exact readWord_advances _ _
    · trivial
  · split
    · exact readWord_advances _ _
    · trivial

theorem readBridgeAction_advances (first : Char) (later : List Char) :
    (readBridgeAction first later).Advances := by
  unfold readBridgeAction
  split
  · exact readWord_advances _ _
  · trivial

theorem readName_advances (next : Place) (first : Char) (later : List Char) :
    (readName next first later).Advances := by
  unfold readName
  split
  · exact List.cons_ne_nil _ _
  · trivial

theorem readMark_advances (symbol : Char) (kind : Token.Kind) (next : Place) (first : Char) :
    (readMark symbol kind next first).Advances := by
  unfold readMark
  split
  · exact List.cons_ne_nil _ _
  · trivial

theorem readQuoted_advances (next : Place) (later : List Char) :
    (readQuoted next later).Advances := by
  unfold readQuoted
  split
  · exact List.cons_ne_nil _ _
  · trivial

theorem readValue_advances (next : Place) (first : Char) (later : List Char) :
    (readValue next first later).Advances := by
  unfold readValue
  split
  · exact readQuoted_advances next later
  · split
    · trivial
    · exact List.cons_ne_nil _ _

theorem readSeparator_advances (item closed : Place) (first : Char) (later : List Char) :
    (readSeparator item closed first later).Advances := by
  unfold readSeparator
  split
  · exact List.cons_ne_nil _ _
  · split
    · exact List.cons_ne_nil _ _
    · trivial

/-- Wherever a token is found, it has at least one character. -/
theorem Goal.read_advances (goal : Goal) (text : List Char) : (goal.read text).Advances := by
  cases goal with
  | command => exact readCommand_advances text
  | bridgeAction =>
      cases text with
      | nil => trivial
      | cons first later => exact readBridgeAction_advances first later
  | keyword kind next =>
      cases text with
      | nil => trivial
      | cons first later => exact readWord_advances _ _
  | name next =>
      cases text with
      | nil => trivial
      | cons first later => exact readName_advances next first later
  | mark symbol kind next =>
      cases text with
      | nil => trivial
      | cons first later => exact readMark_advances symbol kind next first
  | value next =>
      cases text with
      | nil => trivial
      | cons first later => exact readValue_advances next first later
  | separator item closed =>
      cases text with
      | nil => trivial
      | cons first later => exact readSeparator_advances item closed first later
  | commaOrKeyword item kind next =>
      cases text with
      | nil => trivial
      | cons first later =>
          simp only [read]
          split
          · exact List.cons_ne_nil _ _
          · exact readWord_advances _ _
  | nothing =>
      cases text with
      | nil => trivial
      | cons first later => trivial

theorem Goal.text_ne_nil_of_read {goal : Goal} {text lexeme : List Char} {kind : Token.Kind}
    {next : Place} (reading : goal.read text = .token kind lexeme next) : text ≠ [] := by
  rintro rfl
  cases goal <;> cases reading

end TableFeed
