import TableFeed.Scan.Scanner

/-!
# A head that moves over a command

A command can also be scanned by a head that meets its characters one at a time. The head counts in
bytes: where the pending piece of the text starts, where the head stands, and how wide the character
is over which it went last, so that it can step back over it. Only one step back is ever possible.
At the end of the text the head meets a null character and stays where it is.

A piece of the text is cut out by the numbers of bytes in front of it and up to its end, and there
is no such piece unless both fall between two characters. A head that asks for one all the same is
jammed, and so is a head that steps back too far. Each move is put on record.
-/

namespace TableFeed

/-- The part of a text behind the given number of bytes, if they end between two characters. -/
def behind? : Nat → List Char → Option (List Char)
  | 0, text => some text
  | _ + 1, [] => none
  | count + 1, character :: later =>
      if character.utf8Size ≤ count + 1 then behind? (count + 1 - character.utf8Size) later
      else none

/-- The part of a text in front of the given number of bytes, if they end between two characters. -/
def front? : Nat → List Char → Option (List Char)
  | 0, _ => some []
  | _ + 1, [] => none
  | count + 1, character :: later =>
      if character.utf8Size ≤ count + 1 then
        (front? (count + 1 - character.utf8Size) later).map (character :: ·)
      else none

/-- The piece of a text between two numbers of bytes, if both fall between two characters. -/
def piece? (start stop : Nat) (text : List Char) : Option (List Char) :=
  if start ≤ stop then (behind? start text).bind (front? (stop - start)) else none

/-- The character that a head meets at the end of the text. -/
abbrev endMark : Char := '\x00'

/-- Where the pending piece of the text starts, where the head stands, and the width of the
character over which it went last, all in bytes. -/
structure Head where
  start : Nat
  position : Nat
  width : Nat
  deriving DecidableEq

/-- The head in front of the first character. -/
def Head.atStart : Head :=
  ⟨0, 0, 0⟩

/-- What a head can do: go on to the next character, step back over it, leave the pending piece out,
take it, hand it out as a token, report a fault, and end a turn. -/
inductive Move
  | next
  | back
  | leave
  | take
  | emit
  | report
  | turn
  deriving DecidableEq

/-- A move, with the head before and after it. -/
structure Step where
  move : Move
  before : Head
  after : Head
  deriving DecidableEq

/-- What can stop a head: there is no text behind a position, or no piece between two positions, it
steps back over more than there is, or a token would end in front of its start or behind the end of
the text. -/
inductive Jam
  | noPlace (position : Nat)
  | noPiece (start stop : Nat)
  | beforeStart
  | misplaced
  deriving DecidableEq

/-- A text under a head, with the tokens handed out so far and the steps on record, the latest step
first. -/
structure Tape (text : String) where
  head : Head
  tokens : List PlacedToken
  steps : List Step

/-- What is done with a tape. -/
abbrev Action (text : String) :=
  StateT (Tape text) (Except Jam)

variable {text : String}

namespace Tape

/-- The tape with the head in front of the first character. -/
def atStart (text : String) : Tape text :=
  ⟨.atStart, [], []⟩

/-- Put the head elsewhere, and the move on record. -/
def moved (tape : Tape text) (move : Move) (head : Head) : Tape text :=
  { tape with head := head, steps := ⟨move, tape.head, head⟩ :: tape.steps }

/-- Hand out a token. -/
def given (tape : Tape text) (move : Move) (token : PlacedToken) : Tape text :=
  { tape.moved move tape.head with tokens := tape.tokens ++ [token] }

/-- Whether nothing is left of the text. -/
def atEnd (tape : Tape text) : Bool :=
  byteLength text.toList ≤ tape.head.position

end Tape

namespace Action

/-- Go on to the next character, and tell which one it is. -/
def next : Action text Char := fun tape =>
  match behind? tape.head.position text.toList with
  | none => .error (.noPlace tape.head.position)
  | some [] => .ok (endMark, tape.moved .next { tape.head with width := 0 })
  | some (character :: _) =>
      .ok (character, tape.moved .next { tape.head with
        position := tape.head.position + character.utf8Size
        width := character.utf8Size })

/-- Step back over the last character. -/
def back : Action text Unit := fun tape =>
  if tape.head.position < tape.head.width then .error .beforeStart
  else .ok ((), tape.moved .back { tape.head with
    position := tape.head.position - tape.head.width
    width := 0 })

/-- Tell which character comes next, and stay in front of it. -/
def peek : Action text Char := do
  let character ← next
  back
  return character

/-- Leave out the pending piece. -/
def leave : Action text Unit := fun tape =>
  .ok ((), tape.moved .leave { tape.head with start := tape.head.position })

/-- Tell what the pending piece is. -/
def pending : Action text (List Char) := fun tape =>
  match piece? tape.head.start tape.head.position text.toList with
  | none => .error (.noPiece tape.head.start tape.head.position)
  | some piece => .ok (piece, tape)

/-- Take the pending piece. -/
def take : Action text (List Char) := do
  let piece ← pending
  modify fun tape => tape.moved .take { tape.head with start := tape.head.position }
  return piece

/-- Hand out the pending piece as a token. -/
def emit (kind : Token.Kind) : Action text Unit := do
  let tape ← get
  if tape.head.start ≤ tape.head.position ∧ tape.head.position ≤ byteLength text.toList then
    let piece ← take
    modify fun later => later.given .emit ⟨⟨kind, String.ofList piece⟩, some tape.head.start⟩
  else throw .misplaced

/-- Report a fault in a piece of the text. Nothing is looked for afterwards. -/
def report (fault : Fault) (piece : List Char) : Action text (Option Place) := do
  leave
  modify fun tape => tape.given .report (Scanner.errorToken fault piece)
  return none

/-- Take the pending piece and report a fault in it. -/
def refuse (fault : Fault) : Action text (Option Place) := do
  let piece ← take
  report fault piece

end Action

/-! ## Runs of characters -/

section Progress

variable {tape later : Tape text} {character : Char}

theorem Action.bind_eq_ok {α β : Type} {action : Action text α} {further : α → Action text β}
    {result : β × Tape text} :
    (action >>= further) tape = .ok result ↔
      ∃ answer middle, action tape = .ok (answer, middle) ∧
        further answer middle = .ok result := by
  cases done : action tape with
  | error jam => simp [bind, StateT.bind, Except.bind, done]
  | ok reached =>
      obtain ⟨answer, middle⟩ := reached
      simp [bind, StateT.bind, Except.bind, done, and_assoc]

theorem byteLength_of_behind? {count : Nat} {characters rest : List Char}
    (found : behind? count characters = some rest) :
    count + byteLength rest = byteLength characters := by
  fun_induction behind? count characters with
  | case1 characters => simp_all
  | case2 count => nomatch found
  | case3 count first characters fits ih =>
      have others := ih found
      simp only [byteLength]
      omega
  | case4 count first characters tooWide => nomatch found

/-- The head goes over the character behind it, or finds that there is none. -/
theorem Action.next_eq_ok (went : next tape = .ok (character, later)) :
    (∃ others, behind? tape.head.position text.toList = some (character :: others) ∧
      later = tape.moved .next
        ⟨tape.head.start, tape.head.position + character.utf8Size, character.utf8Size⟩) ∨
    (behind? tape.head.position text.toList = some [] ∧ character = endMark ∧
      later = tape.moved .next ⟨tape.head.start, tape.head.position, 0⟩) := by
  unfold next at went
  split at went
  · nomatch went
  · rename_i ended
    obtain ⟨rfl, rfl⟩ := Prod.mk.inj (Except.ok.inj went)
    exact Or.inr ⟨ended, rfl, rfl⟩
  · rename_i first others found
    obtain ⟨rfl, rfl⟩ := Prod.mk.inj (Except.ok.inj went)
    exact Or.inl ⟨others, found, rfl⟩

theorem Action.position_of_next (went : next tape = .ok (character, later)) :
    later.head.position = tape.head.position + later.head.width := by
  rcases next_eq_ok went with ⟨others, -, rfl⟩ | ⟨-, -, rfl⟩
  · rfl
  · rfl

/-- Unless the head is at the end of the text, it has gone on. -/
theorem Action.further_of_next (went : next tape = .ok (character, later))
    (inside : ¬ (character = endMark ∧ later.atEnd = true)) :
    tape.head.position < byteLength text.toList ∧
      tape.head.position < later.head.position := by
  rcases next_eq_ok went with ⟨others, found, rfl⟩ | ⟨ended, rfl, rfl⟩
  · have whole := byteLength_of_behind? found
    have width := Char.utf8Size_pos character
    simp only [byteLength] at whole
    refine ⟨?_, Nat.lt_add_of_pos_right width⟩
    omega
  · have whole := byteLength_of_behind? ended
    refine (inside ⟨rfl, decide_eq_true ?_⟩).elim
    exact Nat.le_of_eq whole.symm

theorem Action.position_of_back (stepped : back tape = .ok ((), later)) :
    later.head.position = tape.head.position - tape.head.width := by
  unfold back at stepped
  split at stepped
  · nomatch stepped
  · obtain ⟨-, rfl⟩ := Prod.mk.inj (Except.ok.inj stepped)
    rfl

theorem Action.position_of_peek (looked : peek tape = .ok (character, later)) :
    later.head.position = tape.head.position := by
  obtain ⟨read, middle, went, looked⟩ := bind_eq_ok.mp looked
  obtain ⟨⟨⟩, behind, stepped, looked⟩ := bind_eq_ok.mp looked
  obtain ⟨-, rfl⟩ := Prod.mk.inj (Except.ok.inj looked)
  rw [position_of_back stepped, position_of_next went, Nat.add_sub_cancel]

end Progress

/-- The characters of a run. The end of the text is none of them. -/
structure CharRun where
  belongs : Char → Bool
  ends : belongs endMark = false

namespace CharRun

/-- The blanks in front of a token. -/
def blanks : CharRun :=
  ⟨isBlank, by decide⟩

/-- The characters of a word. -/
def word : CharRun :=
  ⟨fun character => !endsWord character, by decide⟩

/-- The characters of a name behind the first one. -/
def name : CharRun :=
  ⟨isLetterOrDigit, by decide⟩

/-- The characters of a bare value. -/
def bareValue : CharRun :=
  ⟨fun character => !endsValue character, by decide⟩

end CharRun

namespace Action

/-- Go on up to the first character that does not belong to a run, and over that one. -/
def overshoot (run : CharRun) (tape : Tape text) : Except Jam (Unit × Tape text) :=
  match _went : next tape with
  | .error jam => .error jam
  | .ok (character, later) =>
      if _inside : run.belongs character = true then overshoot run later else .ok ((), later)
termination_by byteLength text.toList - tape.head.position
decreasing_by
  have further := further_of_next _went fun ended => by
    rw [ended.1, run.ends] at _inside
    nomatch _inside
  exact Nat.sub_lt_sub_left further.1 further.2

/-- Go over a run of characters. -/
def pass (run : CharRun) : Action text Unit := do
  overshoot run
  back

/-- Go over the blanks, and leave them out. -/
def skipBlanks : Action text Unit := do
  pass .blanks
  leave

/-- Go on behind the first quotation mark that pairs with no other. The answer tells whether there
is one. -/
def close (tape : Tape text) : Except Jam (Bool × Tape text) :=
  match _went : next tape with
  | .error jam => .error jam
  | .ok (character, first) =>
      if _quoted : character = quoteMark then
        match _looked : peek first with
        | .error jam => .error jam
        | .ok (following, second) =>
            if following = quoteMark then
              match _paired : next second with
              | .error jam => .error jam
              | .ok (_, third) => close third
            else .ok (true, second)
      else if _inside : character = endMark ∧ first.atEnd = true then .ok (false, first)
      else close first
termination_by byteLength text.toList - tape.head.position
decreasing_by
  · have pair : character ≠ endMark := by
      rintro rfl
      nomatch _quoted
    have further := further_of_next _went fun ended => pair ended.1
    have stays := position_of_peek _looked
    have beyond := position_of_next _paired
    omega
  · have further := further_of_next _went _inside
    omega

end Action

end TableFeed
