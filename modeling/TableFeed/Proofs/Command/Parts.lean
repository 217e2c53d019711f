import Mathlib.Data.List.Forall2
import TableFeed.Command.Basic
import TableFeed.Text.Quoted
import TableFeed.Token

/-!
# The parts of a command

A command has parts, and each part is said by one token. The parts of a command are known from the
command alone. What they leave open is only how a keyword's token is called and whether a value is
written bare or quoted.
-/

namespace TableFeed

/-- A part of a command. A value may be written bare or quoted, and an address is written bare. -/
inductive Part
  | word (kind : Token.Kind)
  | name (text : String)
  | value (text : String)
  | address (text : String)
  deriving DecidableEq

/-- A token says a part. -/
def Part.Fits : Part → Token → Prop
  | word kind, token => token.kind = kind
  | name text, token => token = ⟨.name, text⟩
  | value text, token => token = ⟨.value, text⟩ ∨
      token.kind = .string ∧ String.ofList (Quoted.unquote token.text.toList) = text
  | address text, token => token = ⟨.value, text⟩

/-- The parts of some items, with commas between them. -/
def listed : List (List Part) → List Part
  | [] => []
  | [item] => item
  | item :: others => item ++ .word .comma :: listed others

/-- The parts of some items, with commas between them and a parenthesis behind the last. -/
def closed (items : List (List Part)) : List Part :=
  listed items ++ [.word .rightParen]

/-- The parts of an entry. -/
def Entry.parts (entry : Entry) : List Part :=
  [.name entry.column, .word .equal, .value entry.value]

/-- The parts of a filter, if there is one. -/
def filterParts : Option Entry → List Part
  | none => []
  | some entry => .word .whereWord :: entry.parts

/-- The parts of a row that is inserted. -/
def rowParts (row : List Entry) : List Part :=
  [.word .leftParen] ++ listed (row.map fun entry => [.name entry.column]) ++
    [.word .rightParen, .word .values, .word .leftParen] ++
      listed (row.map fun entry => [.value entry.value]) ++ [.word .rightParen]

theorem rowParts_eq (row : List Entry) :
    rowParts row = .word .leftParen :: (closed (row.map fun entry => [.name entry.column]) ++
      .word .values :: .word .leftParen :: closed (row.map fun entry => [.value entry.value])) := by
  simp [rowParts, closed]

/-- The parts of a bridge action. -/
def BridgeAction.parts : BridgeAction → List Part
  | connect address => [.word .connect, .address address]
  | disconnect => [.word .disconnect]
  | subscribe => [.word .subscribe]
  | unsubscribe => [.word .unsubscribe]

namespace Command

/-- The parts of a command. -/
def parts : Command → List Part
  | help => [.word .help]
  | status => [.word .status]
  | stop => [.word .stop]
  | start => [.word .start]
  | select table filter =>
      [.word .select, .word .star, .word .fromWord, .name table] ++ filterParts filter
  | subscribe table filter =>
      [.word .subscribe, .word .star, .word .fromWord, .name table] ++ filterParts filter
  | unsubscribe table => [.word .unsubscribe, .word .fromWord, .name table]
  | insert table row => [.word .insert, .word .into, .name table] ++ rowParts row
  | update table changes filter =>
      [.word .update, .name table, .word .set] ++ listed (changes.map Entry.parts) ++
        filterParts filter
  | delete table filter => [.word .delete, .word .fromWord, .name table] ++ filterParts filter
  | bridge action => .word .mysql :: action.parts

/-- A row that is inserted and the changes of an update have at least one entry. -/
def HasEntries : Command → Prop
  | insert _ row => row ≠ []
  | update _ changes _ => changes ≠ []
  | _ => True

end Command

/-- Tokens begin with some that say the parts, and go on with the rest. -/
def Taken (parts : List Part) (tokens rest : List Token) : Prop :=
  ∃ taken, tokens = taken ++ rest ∧ List.Forall₂ Part.Fits parts taken

section Taken

variable {part : Part} {parts others : List Part} {tokens rest : List Token}

@[simp]
theorem taken_nil : Taken [] tokens rest ↔ tokens = rest := by
  simp [Taken]

theorem taken_cons : Taken (part :: parts) tokens rest ↔
    ∃ token later, tokens = token :: later ∧ part.Fits token ∧ Taken parts later rest := by
  simp only [Taken, List.forall₂_cons_left_iff]
  constructor
  · rintro ⟨_, rfl, token, taken, fits, others, rfl⟩
    exact ⟨token, _, rfl, fits, taken, rfl, others⟩
  · rintro ⟨token, _, rfl, fits, taken, rfl, others⟩
    exact ⟨token :: taken, rfl, token, taken, fits, others, rfl⟩

theorem forall₂_append_left_iff {α β : Type} {relation : α → β → Prop} {first second : List α}
    {third : List β} :
    List.Forall₂ relation (first ++ second) third ↔
      ∃ start behind, third = start ++ behind ∧ List.Forall₂ relation first start ∧
        List.Forall₂ relation second behind := by
  constructor
  · intro related
    induction first generalizing third with
    | nil => exact ⟨[], third, rfl, .nil, related⟩
    | cons element first ih =>
        rw [List.cons_append, List.forall₂_cons_left_iff] at related
        obtain ⟨image, later, here, others, rfl⟩ := related
        obtain ⟨start, behind, rfl, startRelated, behindRelated⟩ := ih others
        exact ⟨image :: start, behind, rfl, .cons here startRelated, behindRelated⟩
  · rintro ⟨start, behind, rfl, startRelated, behindRelated⟩
    exact List.rel_append startRelated behindRelated

theorem taken_append : Taken (parts ++ others) tokens rest ↔
    ∃ middle, Taken parts tokens middle ∧ Taken others middle rest := by
  simp only [Taken, forall₂_append_left_iff]
  constructor
  · rintro ⟨_, rfl, taken, behind, rfl, partsFit, othersFit⟩
    exact ⟨behind ++ rest, ⟨taken, List.append_assoc _ _ _, partsFit⟩, behind, rfl, othersFit⟩
  · rintro ⟨_, ⟨taken, rfl, partsFit⟩, behind, rfl, othersFit⟩
    exact ⟨taken ++ behind, (List.append_assoc _ _ _).symm, taken, behind, rfl, partsFit, othersFit⟩

theorem taken_cons_cons {other : Part} : Taken (part :: other :: parts) tokens rest ↔
    ∃ middle, Taken [part] tokens middle ∧ Taken (other :: parts) middle rest := by
  rw [← List.singleton_append, taken_append]

/-- Behind an item either the list ends, or a comma stands in front of other items. -/
theorem taken_listed_cons {item ending : List Part} {items : List (List Part)} :
    Taken (listed (item :: items) ++ ending) tokens rest ↔
      ∃ middle, Taken item tokens middle ∧
        ((items = [] ∧ Taken ending middle rest) ∨
          (items ≠ [] ∧ ∃ comma later, middle = comma :: later ∧ comma.kind = .comma ∧
            Taken (listed items ++ ending) later rest)) := by
  cases items with
  | nil => simp [listed, taken_append]
  | cons other items =>
      have split : listed (item :: other :: items) ++ ending =
          item ++ .word .comma :: (listed (other :: items) ++ ending) := by
        rw [listed, List.append_assoc, List.cons_append]
        exact List.cons_ne_nil _ _
      simp [split, taken_append, taken_cons, Part.Fits]

end Taken

end TableFeed
