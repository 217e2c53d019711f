import TableFeed.Command.Written
import TableFeed.Proofs.Text.Json

/-!
# What is shown tells the command

The main statements say that the JSON value of a command tells the command, that its term on one
line tells the command among those of its kind, and that the title in front of the line tells the
kind. The line and the title are free of line breaks.
-/

namespace TableFeed

/-! ## JSON values -/

theorem Entry.json_injective : Function.Injective Entry.json := by
  rintro ⟨column, value⟩ ⟨otherColumn, otherValue⟩ same
  obtain ⟨rfl, rfl⟩ : column = otherColumn ∧ value = otherValue := by
    simpa [Entry.json] using same
  rfl

theorem Entry.optionalJson_injective : Function.Injective Entry.optionalJson := by
  rintro (_ | entry) (_ | other) same
  · rfl
  · simp [Entry.optionalJson, Entry.json] at same
  · simp [Entry.optionalJson, Entry.json] at same
  · exact congrArg some (Entry.json_injective same)

theorem BridgeAction.json_injective : Function.Injective BridgeAction.json := by
  intro action other same
  cases action <;> cases other <;> simp_all [BridgeAction.json]

theorem Command.json_injective : Function.Injective Command.json := by
  have entries := List.map_injective_iff.mpr Entry.json_injective
  intro command other same
  cases command <;> cases other <;>
    simp_all [Command.json, filteredJson, entries.eq_iff, Entry.optionalJson_injective.eq_iff,
      BridgeAction.json_injective.eq_iff]

theorem Token.Kind.ofKey?_key (kind : Token.Kind) : ofKey? kind.key = some kind := by
  cases kind <;> rfl

theorem Token.json_injective : Function.Injective Token.json := by
  rintro ⟨kind, text⟩ ⟨otherKind, otherText⟩ same
  obtain ⟨sameKey, rfl⟩ : kind.key = otherKind.key ∧ text = otherText := by
    simpa [Token.json] using same
  have found := kind.ofKey?_key
  rw [sameKey, otherKind.ofKey?_key] at found
  rw [Option.some.inj found]

/-! ## Terms on one line -/

theorem Term.line_name (word : String) : (name word).line = word := by
  rw [line]

theorem Term.line_text (value : String) : (text value).line = literal value := by
  rw [line]

theorem Term.line_record (head : String) (fields : List (String × Term)) :
    (record head fields).line = head ++ " \x7b " ++ fieldsLine fields ++ " \x7d" := by
  rw [line]

theorem selfDelimiting_entry : SelfDelimiting fun entry : Entry => entry.term.line.toList := by
  rintro ⟨column, value⟩ ⟨otherColumn, otherValue⟩ rest others same
  simp only [Entry.term, Term.line_record, Term.line_text, Term.fieldsLine, String.toList_append,
    List.append_assoc, List.append_cancel_left_eq] at same
  obtain ⟨rfl, further⟩ := selfDelimiting_literal same
  simp only [List.append_cancel_left_eq] at further
  obtain ⟨rfl, behind⟩ := selfDelimiting_literal further
  exact ⟨rfl, List.append_cancel_left behind⟩

theorem selfDelimiting_filter : SelfDelimiting fun filter : Option Entry =>
    (Term.optional Entry.term filter).line.toList := by
  rintro (_ | entry) (_ | other) rest others same
  · exact ⟨rfl, List.append_cancel_left same⟩
  · simp [Term.optional, Term.line] at same
  · simp [Term.optional, Term.line] at same
  · simp only [Term.optional, Term.line, String.toList_append, List.append_assoc,
      List.append_cancel_left_eq] at same
    obtain ⟨rfl, behind⟩ := selfDelimiting_entry same
    exact ⟨rfl, List.append_cancel_left behind⟩

theorem Term.itemsLine_eq (items : List Term) :
    (itemsLine items).toList = [',', ' '].intercalate (items.map fun item => item.line.toList) := by
  induction items with
  | nil => rfl
  | cons item items ih =>
      cases items with
      | nil => simp [itemsLine]
      | cons second items => simp [itemsLine, ih]

theorem selfDelimiting_entries : SelfDelimiting fun entries : List Entry =>
    (Term.list (entries.map Entry.term)).line.toList := by
  intro entries otherEntries rest others same
  simp only [Term.line, String.toList_append, Term.itemsLine_eq, List.map_map,
    List.append_assoc, List.append_cancel_left_eq] at same
  cases entries with
  | nil =>
      cases otherEntries with
      | nil => exact ⟨rfl, List.append_cancel_left same⟩
      | cons other otherEntries =>
          cases otherEntries <;> simp [Entry.term, Term.line] at same
  | cons entry entries =>
      cases otherEntries with
      | nil => cases entries <;> simp [Entry.term, Term.line] at same
      | cons other otherEntries =>
          exact intercalate_unique (by decide) (fun entry _ => @selfDelimiting_entry entry)
            (List.cons_ne_nil _ _) (List.cons_ne_nil _ _) same

namespace Command

/-- Among the commands of a kind, the line tells the command. -/
theorem eq_of_line {command other : Command} (sameKind : command.kind = other.kind)
    (same : command.term.line = other.term.line) : command = other := by
  have texts := congrArg (fun line => line.toList ++ []) same
  rcases command with _ | _ | _ | _ | ⟨table, filter⟩ | ⟨table, filter⟩ | table | ⟨table, row⟩ |
    ⟨table, changes, filter⟩ | ⟨table, filter⟩ | (address | _ | _ | _)
  all_goals
    rcases other with _ | _ | _ | _ | ⟨otherTable, otherFilter⟩ | ⟨otherTable, otherFilter⟩ |
      otherTable | ⟨otherTable, otherRow⟩ | ⟨otherTable, otherChanges, otherFilter⟩ |
      ⟨otherTable, otherFilter⟩ | (otherAddress | _ | _ | _)
  all_goals cases sameKind
  -- Only commands of one form are left, and those without any parts are equal.
  all_goals try rfl
  all_goals simp only [term, BridgeAction.term, Term.line_record, Term.line_text, Term.fieldsLine,
    String.toList_append, List.append_assoc, List.append_cancel_left_eq] at texts
  case select | subscribe | delete =>
    obtain ⟨rfl, further⟩ := selfDelimiting_literal texts
    simp only [List.append_cancel_left_eq] at further
    obtain ⟨rfl, -⟩ := selfDelimiting_filter further
    rfl
  case unsubscribe | bridge.connect =>
    obtain ⟨rfl, -⟩ := selfDelimiting_literal texts
    rfl
  case insert =>
    obtain ⟨rfl, further⟩ := selfDelimiting_literal texts
    simp only [List.append_cancel_left_eq] at further
    obtain ⟨rfl, -⟩ := selfDelimiting_entries further
    rfl
  case update =>
    obtain ⟨rfl, further⟩ := selfDelimiting_literal texts
    simp only [List.append_cancel_left_eq] at further
    obtain ⟨rfl, last⟩ := selfDelimiting_entries further
    simp only [List.append_cancel_left_eq] at last
    obtain ⟨rfl, -⟩ := selfDelimiting_filter last
    rfl

end Command

/-! ## Titles -/

namespace Command.Kind

theorem find?_title (kind : Kind) :
    all.find? (fun other => other.title == kind.title) = some kind := by
  cases kind <;> rfl

theorem title_injective : Function.Injective title := by
  intro kind other same
  have found := kind.find?_title
  rw [same, other.find?_title] at found
  exact (Option.some.inj found).symm

theorem title_ne_error (kind : Kind) : kind.title ≠ "error" := by
  cases kind <;> decide

theorem colon_notMem_title (kind : Kind) : ':' ∉ kind.title.toList := by
  cases kind <;> decide

theorem newline_notMem_title (kind : Kind) : '\n' ∉ kind.title.toList := by
  cases kind <;> decide

end Command.Kind

/-! ## Lines have no line breaks -/

theorem newline_notMem_entry (entry : Entry) : '\n' ∉ entry.term.line.toList := by
  simp [Entry.term, Term.line_record, Term.line_text, Term.fieldsLine, newline_notMem_literal]

theorem newline_notMem_filter (filter : Option Entry) :
    '\n' ∉ (Term.optional Entry.term filter).line.toList := by
  cases filter with
  | none => simp [Term.optional, Term.line]
  | some entry => simp [Term.optional, Term.line, newline_notMem_entry]

theorem newline_notMem_entries (entries : List Entry) :
    '\n' ∉ (Term.list (entries.map Entry.term)).line.toList := by
  have between : '\n' ∉ (Term.itemsLine (entries.map Entry.term)).toList := by
    induction entries with
    | nil => simp [Term.itemsLine]
    | cons entry entries ih =>
        cases entries with
        | nil => simpa [Term.itemsLine] using newline_notMem_entry entry
        | cons second entries =>
            simpa [Term.itemsLine, newline_notMem_entry] using ih
  simp [Term.line, between]

/-- The line of a command is one line. -/
theorem Command.newline_notMem_line (command : Command) : '\n' ∉ command.term.line.toList := by
  rcases command with _ | _ | _ | _ | _ | _ | _ | _ | _ | _ | (_ | _ | _ | _)
  all_goals simp [term, BridgeAction.term, Term.line_name, Term.line_text, Term.line_record,
    Term.fieldsLine, newline_notMem_literal, newline_notMem_filter,
    newline_notMem_entries]

end TableFeed
