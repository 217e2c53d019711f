import TableFeed.Command.Basic
import TableFeed.Command.Error
import TableFeed.Scan.Scanner

/-!
# Reading from the front of a list of tokens

The parts of a command are read from the front of a list of tokens. Behind the last token of a list
everything reads as the end of the command. An error token makes the command invalid as soon as it
is taken, but not when it is only looked at. The main statement says that an entry takes at least
one token, so that a list of entries ends.
-/

namespace TableFeed

/-- A token, unless it reports a fault. -/
def Token.checked (token : Token) : Except CommandError Token :=
  if token.kind = .error then .error (.lexical token.text) else .ok token

/-- The text of a token that has to be of the given kind. -/
def Token.textOf (kind : Token.Kind) (expected : Expected) (token : Token) :
    Except CommandError String := do
  let token ← token.checked
  if token.kind = kind then pure token.text else throw (.unexpected expected token.shown)

/-- The value that a token stands for. -/
def Token.valueText (token : Token) : Except CommandError String := do
  let token ← token.checked
  match token.kind with
  | .value => pure token.text
  | .string => pure (String.ofList (Quoted.unquote token.text.toList))
  | _ => throw (.unexpected .value token.shown)

/-- Something read from the front of a list of tokens. -/
abbrev Reader := StateT (List Token) (Except CommandError)

namespace Reader

/-- The token in front of a list. Behind the last token stands the end of the command. -/
def front (tokens : List Token) : Token :=
  tokens.head?.getD .ending

/-- Take one token. -/
def one {α : Type} (read : Token → Except CommandError α) : Reader α := fun tokens => do
  return (← read (front tokens), tokens.tail)

/-- The kind of the token in front, which stays where it is. -/
def nextKind : Reader Token.Kind := fun tokens =>
  .ok ((front tokens).kind, tokens)

/-- Take a token of the given kind. -/
def expect (kind : Token.Kind) (expected : Expected) : Reader String :=
  one (Token.textOf kind expected)

/-- Take a token that can be spelled in one way only. -/
def expectWord (kind : Token.Kind) : Reader Unit := do
  let _ ← expect kind (.token kind)

/-- Take the name of a table. -/
def table : Reader String :=
  expect .name .table

/-- Take a column, an equality sign and a value. -/
def entry : Reader Entry := do
  let column ← expect .name .column
  expectWord .equal
  let value ← one Token.valueText
  return ⟨column, value⟩

/-- Take a filter, if there is one. -/
def filter : Reader (Option Entry) := do
  if (← nextKind) = .whereWord then
    expectWord .whereWord
    return some (← entry)
  else return none

/-- Take items of one token each, with commas between them and a parenthesis behind the last. -/
def items {α : Type} (read : Token → Except CommandError α) : Reader (List α)
  | [] => do
      let _ ← read .ending
      throw (.unexpected .separator Token.ending.shown)
  | [token] => do
      let _ ← read token
      throw (.unexpected .separator Token.ending.shown)
  | token :: separator :: later => do
      let first ← read token
      let separator ← separator.checked
      match separator.kind with
      | .comma =>
          let (others, rest) ← items read later
          return (first :: others, rest)
      | .rightParen => return ([first], later)
      | _ => throw (.unexpected .separator separator.shown)

theorem bind_eq_ok {α β : Type} {first : Reader α} {second : α → Reader β}
    {tokens rest : List Token} {value : β} :
    (first >>= second) tokens = .ok (value, rest) ↔
      ∃ found middle,
        first tokens = .ok (found, middle) ∧ second found middle = .ok (value, rest) := by
  cases result : first tokens with
  | error reason => simp [bind, StateT.bind, Except.bind, result]
  | ok pair => simp [bind, StateT.bind, Except.bind, result, Prod.ext_iff, and_assoc]

theorem one_eq_ok {α : Type} {read : Token → Except CommandError α} {tokens rest : List Token}
    {value : α} :
    one read tokens = .ok (value, rest) ↔
      read (front tokens) = .ok value ∧ tokens.tail = rest := by
  cases result : read (front tokens) <;>
    simp [one, result, bind, Except.bind, pure, Except.pure]

theorem pure_eq_ok {α : Type} {tokens rest : List Token} {answer value : α} :
    (pure answer : Reader α) tokens = .ok (value, rest) ↔ answer = value ∧ tokens = rest := by
  change Except.ok (answer, tokens) = .ok (value, rest) ↔ _
  simp

/-- Only the kind that stands for the end of a command is found behind the last token. -/
theorem ne_nil_of_expect {kind : Token.Kind} {expected : Expected} {tokens rest : List Token}
    {text : String} (taken : expect kind expected tokens = .ok (text, rest))
    (inside : kind ≠ .endOfInput) : tokens ≠ [] := by
  rintro rfl
  obtain ⟨found, -⟩ := one_eq_ok.mp taken
  simp [front, Token.textOf, Token.checked, Token.ending, inside.symm, bind, Except.bind, throw,
    throwThe, MonadExceptOf.throw] at found

theorem length_lt_of_entry {tokens rest : List Token} {found : Entry}
    (taken : entry tokens = .ok (found, rest)) : rest.length < tokens.length := by
  obtain ⟨column, afterColumn, columnTaken, taken⟩ := bind_eq_ok.mp taken
  obtain ⟨_, afterEqual, equalTaken, taken⟩ := bind_eq_ok.mp taken
  obtain ⟨_, middle, markTaken, equalTaken⟩ := bind_eq_ok.mp equalTaken
  obtain ⟨value, afterValue, valueTaken, taken⟩ := bind_eq_ok.mp taken
  have available := List.length_pos_iff.mpr (ne_nil_of_expect columnTaken (by decide))
  obtain ⟨-, rfl⟩ := one_eq_ok.mp columnTaken
  obtain ⟨-, rfl⟩ := one_eq_ok.mp markTaken
  obtain ⟨-, rfl⟩ := pure_eq_ok.mp equalTaken
  obtain ⟨-, rfl⟩ := one_eq_ok.mp valueTaken
  obtain ⟨-, rfl⟩ := pure_eq_ok.mp taken
  simp only [List.length_tail]
  omega

/-- Take entries with commas between them. -/
def entries (tokens : List Token) : Except CommandError (List Entry × List Token) :=
  match _step : entry tokens with
  | .error reason => .error reason
  | .ok (first, ⟨.comma, _⟩ :: later) => do
      let (others, rest) ← entries later
      return (first :: others, rest)
  | .ok (first, rest) => .ok ([first], rest)
termination_by tokens.length
decreasing_by
  have shorter := length_lt_of_entry _step
  simp only [List.length_cons] at shorter
  omega

end Reader

end TableFeed
