import TableFeed.Scan.Head

/-!
# Scanning with a head

What a head does to look for something at a place: it compares words with keywords letter by letter,
and goes over names, values and marks. In front of a command the first letters of a word choose the
keyword that the word is compared with, and these letters have been passed before it is known
whether they belong to the keyword. A scan takes one turn after another, each at the place to which
the turn before has led, and ends with a turn that hands out the end of the command.
-/

namespace TableFeed

variable {text : String}

namespace Action

/-! ## Words -/

/-- Compare the characters behind the head with a spelling, up to the first one that differs. Tell
whether all are the same, and which character was met last. -/
def compare : List Char → Char → Action text (Bool × Char)
  | [], last => return (true, last)
  | expected :: others, _ => do
      let found ← next
      if found = expected then compare others found else return (false, found)

/-- Compare the pending piece with the first characters of a spelling, and what is behind the head
with the others. The number says how many characters of the spelling have chosen it. So many have
been passed before, or fewer at the end of the text, and the last of them may be the one behind the
word. -/
def compareBehind (spelling : List Char) (chosen : Nat) : Action text (Bool × Char) := do
  let passed ← pending
  let last := passed.getLast?.getD endMark
  if passed = spelling.take chosen then compare (spelling.drop chosen) last
  else return (false, last)

/-- Tell whether a word ends behind the head, and otherwise go over the rest of it. -/
def wordEnds : Action text Bool := do
  if endsWord (← peek) = true then return true
  pass .word
  return false

/-- Go to the end of a word that has been compared, up to the given character, and tell whether the
whole word is the same. -/
def endWord (matched : Bool) (last : Char) : Action text Bool := do
  if matched = false ∧ endsWord last = true then
    back
    return false
  let ended ← wordEnds
  return matched && ended

/-- Go to the end of a word, and tell whether it is the given keyword. -/
def matchWord (spelling : List Char) (chosen : Nat) : Action text Bool := do
  let (matched, last) ← compareBehind spelling chosen
  endWord matched last

/-- Read a word that has to be the given keyword. -/
def keyword (kind : Token.Kind) (chosen : Nat) (next : Place) : Action text (Option Place) := do
  if ← matchWord kind.spelling.toList chosen then
    emit kind
    return some next
  refuse .unknownWord

/-! ## What is looked for -/

/-- Skip the blanks, and look for something if there is any text behind them. -/
def behindBlanks (look : Action text (Option Place)) : Action text (Option Place) := do
  skipBlanks
  if (← get).atEnd then return none
  look

/-- Read the first word of a command behind its letters `st`. -/
def commandBehindSt : Action text (Option Place) := do
  if (← next) = 'a' then
    if (← next) = 'r' then keyword .start 4 .finish else keyword .status 4 .finish
  else keyword .stop 3 .finish

/-- Read the first word of a command behind its letter `s`. -/
def commandBehindS : Action text (Option Place) := do
  match ← next with
  | 'e' => keyword .select 2 .allColumns
  | 'u' => keyword .subscribe 2 .allColumns
  | 't' => commandBehindSt
  | _ => refuse .noCommand

/-- Read the first word of a command behind its letter `u`. -/
def commandBehindU : Action text (Option Place) := do
  if (← next) = 'p' then keyword .update 2 .updateTable
  else keyword .unsubscribe 2 .sourceWord

/-- Read the first word of a command. -/
def command : Action text (Option Place) := do
  skipBlanks
  match ← next with
  | 'u' => commandBehindU
  | 's' => commandBehindS
  | 'i' => keyword .insert 1 .intoWord
  | 'd' => keyword .delete 1 .sourceWord
  | 'h' => keyword .help 1 .finish
  | 'm' => keyword .mysql 1 .bridgeWord
  | _ => refuse .noCommand

/-- Read the word after the bridge's name. -/
def bridgeAction : Action text (Option Place) := do
  match ← next with
  | 'c' => keyword .connect 1 .bridgeAddress
  | 'd' => keyword .disconnect 1 .finish
  | 's' => keyword .subscribe 1 .finish
  | 'u' => keyword .unsubscribe 1 .finish
  | _ =>
      pass .word
      refuse .noBridgeAction

/-- Read a name. -/
def name (next : Place) : Action text (Option Place) := do
  if isLetter (← Action.next) then
    pass .name
    emit .name
    return some next
  refuse .noLetter

/-- Read one mark. -/
def mark (symbol : Char) (kind : Token.Kind) (next : Place) : Action text (Option Place) := do
  if (← Action.next) = symbol then
    emit kind
    return some next
  refuse (.otherMark symbol)

/-- Read a quoted value. -/
def quoted (next : Place) : Action text (Option Place) := do
  let _ ← Action.next
  if ← close then
    emit .string
    return some next
  refuse .unclosed

/-- Read a bare or quoted value. -/
def value (next : Place) : Action text (Option Place) := do
  if (← peek) = quoteMark then quoted next
  else
    pass .bareValue
    let head := (← get).head
    if head.start = head.position then
      let _ ← Action.next
      refuse .noValue
    else
      emit .value
      return some next

/-- Read the comma in front of another item of a list, or the parenthesis behind the last one. -/
def separator (item closed : Place) : Action text (Option Place) := do
  match ← next with
  | ',' =>
      emit .comma
      return some item
  | ')' =>
      emit .rightParen
      return some closed
  | _ =>
      pass .word
      refuse .noSeparator

/-- Read the comma in front of another change, or else a keyword. -/
def commaOrKeyword (item : Place) (kind : Token.Kind) (next : Place) :
    Action text (Option Place) := do
  skipBlanks
  if (← peek) = ',' then
    let _ ← Action.next
    emit .comma
    return some item
  behindBlanks (keyword kind 0 next)

/-- Refuse a word behind the end of a command. -/
def nothing : Action text (Option Place) := do
  pass .word
  refuse .unknownWord

end Action

/-- Look for what a goal says. Behind a token the head knows at which place to look next. -/
def Goal.look : Goal → Action text (Option Place)
  | command => .command
  | bridgeAction => .behindBlanks .bridgeAction
  | keyword kind next => .behindBlanks (.keyword kind 0 next)
  | name next => .behindBlanks (.name next)
  | mark symbol kind next => .behindBlanks (.mark symbol kind next)
  | value next => .behindBlanks (.value next)
  | separator item closed => .behindBlanks (.separator item closed)
  | commaOrKeyword item kind next => .commaOrKeyword item kind next
  | nothing => .behindBlanks .nothing

/-! ## Turns -/

/-- A scan with a head: its tape, the place of the next turn if one is left, and whether the end of
the command has been handed out. -/
structure HeadScan (text : String) where
  tape : Tape text
  place : Option Place
  finished : Bool

namespace HeadScan

/-- The scan in front of a command. -/
def ofText (text : String) : HeadScan text :=
  ⟨.atStart text, some .start, false⟩

/-- Look for what belongs to a place, and put the end of the turn on record. -/
def visit (place : Place) : Action text (Option Place) := do
  let next ← place.goal.look
  modify fun tape => tape.moved .turn tape.head
  return next

/-- Hand out the end of the command. -/
def conclude : Action text Unit := do
  .leave
  .emit .endOfInput

/-- Take a turn. -/
def turn (scan : HeadScan text) : Except Jam (HeadScan text) :=
  match scan.place with
  | some place => do
      let (next, tape) ← visit place scan.tape
      return ⟨tape, next, false⟩
  | none => do
      let (_, tape) ← conclude scan.tape
      return ⟨tape, none, true⟩

/-- Take the given number of turns, or fewer if the scan is finished before. -/
def turns : Nat → HeadScan text → Except Jam (HeadScan text)
  | 0, scan => .ok scan
  | count + 1, scan =>
      if scan.finished then .ok scan
      else do
        let later ← scan.turn
        later.turns count

end HeadScan

end TableFeed
