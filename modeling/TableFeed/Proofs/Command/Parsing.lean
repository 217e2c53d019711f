import TableFeed.Proofs.Command.Readers
import TableFeed.Proofs.Scan.Spells

/-!
# Which texts are commands

The parts of a command lead a scanner from the start of a command to a place where the command may
end. So the scanner finds the tokens that are read as the command, and the main statement follows: a
text is parsed as a command exactly when it spells tokens for the parts of the command.
-/

namespace TableFeed

/-- Whatever tokens say the parts, they lead from one place to another one. -/
def Place.Guides (place : Place) (parts : List Part) (last : Place) : Prop :=
  ∀ tokens, List.Forall₂ Part.Fits parts tokens → place.Leads (tokens.map Token.kind) last

section Guides

variable {place next behind last : Place} {parts others : List Part} {part : Part}

theorem guides_nil (place : Place) : place.Guides [] place := by
  rintro _ ⟨⟩
  rfl

theorem Place.Guides.cons (takes : ∀ token, part.Fits token → place.goal.Takes token.kind next)
    (guides : next.Guides parts last) : place.Guides (part :: parts) last := by
  intro tokens fits
  obtain ⟨token, later, partFits, othersFit, rfl⟩ := List.forall₂_cons_left_iff.mp fits
  exact ⟨next, takes token partFits, guides later othersFit⟩

theorem Place.Guides.append (guides : place.Guides parts next) (further : next.Guides others last) :
    place.Guides (parts ++ others) last := by
  intro tokens fits
  obtain ⟨taken, behind, rfl, partsFit, othersFit⟩ := forall₂_append_left_iff.mp fits
  rw [List.map_append, leads_append]
  exact ⟨next, guides taken partsFit, further behind othersFit⟩

theorem Place.Guides.word {kind : Token.Kind} (takes : place.goal.Takes kind next)
    (guides : next.Guides parts last) : place.Guides (.word kind :: parts) last :=
  guides.cons fun _ fits => fits ▸ takes

theorem Place.Guides.name {text : String} (goal : place.goal = .name next)
    (guides : next.Guides parts last) : place.Guides (.name text :: parts) last := by
  apply guides.cons
  rintro _ rfl
  rw [goal]
  exact ⟨rfl, rfl⟩

theorem Place.Guides.value {text : String} (goal : place.goal = .value next)
    (guides : next.Guides parts last) : place.Guides (.value text :: parts) last := by
  apply guides.cons
  rintro token fits
  rw [goal]
  rcases fits with rfl | ⟨quoted, -⟩
  · exact ⟨Or.inl rfl, rfl⟩
  · exact ⟨Or.inr quoted, rfl⟩

theorem Place.Guides.address {text : String} (goal : place.goal = .value next)
    (guides : next.Guides parts last) : place.Guides (.address text :: parts) last := by
  apply guides.cons
  rintro _ rfl
  rw [goal]
  exact ⟨Or.inl rfl, rfl⟩

theorem guides_listed {items : List (List Part)} (nonempty : items ≠ [])
    (each : ∀ item ∈ items, place.Guides item behind)
    (comma : behind.goal.Takes .comma place) : place.Guides (listed items) behind := by
  induction items with
  | nil => exact (nonempty rfl).elim
  | cons item others ih =>
      obtain ⟨here, later⟩ := List.forall_mem_cons.mp each
      cases others with
      | nil => exact here
      | cons other others => exact here.append (.word comma (ih (List.cons_ne_nil _ _) later))

theorem guides_filterEntry (entry : Entry) :
    Place.filterColumn.Guides entry.parts .finish :=
  .name rfl (.word ⟨rfl, rfl⟩ (.value rfl (guides_nil .finish)))

theorem guides_changeEntry (entry : Entry) :
    Place.changeColumn.Guides entry.parts .afterChange :=
  .name rfl (.word ⟨rfl, rfl⟩ (.value rfl (guides_nil .afterChange)))

/-- A command may end where a filter may stand, and behind a filter. -/
theorem guides_filter (place : Place) (filtered : Option Entry)
    (takes : place.goal.Takes .whereWord .filterColumn) (begun : place ≠ .start) :
    ∃ last, last ≠ .start ∧ place.Guides (filterParts filtered) last := by
  cases filtered with
  | none => exact ⟨place, begun, guides_nil place⟩
  | some entry => exact ⟨.finish, by decide, (.word takes (guides_filterEntry entry))⟩

theorem guides_row {row : List Entry} (nonempty : row ≠ []) :
    Place.columnsOpen.Guides (rowParts row) .finish := by
  have columns : Place.column.Guides (listed (row.map fun entry => [.name entry.column]))
      .afterColumn := by
    apply guides_listed
    · simpa using nonempty
    · intro item member
      obtain ⟨entry, -, rfl⟩ := List.mem_map.mp member
      exact .name rfl (guides_nil .afterColumn)
    · exact Or.inl ⟨rfl, rfl⟩
  have values : Place.rowValue.Guides (listed (row.map fun entry => [.value entry.value]))
      .afterRowValue := by
    apply guides_listed
    · simpa using nonempty
    · intro item member
      obtain ⟨entry, -, rfl⟩ := List.mem_map.mp member
      exact .value rfl (guides_nil .afterRowValue)
    · exact Or.inl ⟨rfl, rfl⟩
  have closed : Place.afterRowValue.Guides [.word .rightParen] .finish :=
    .word (Or.inr ⟨rfl, rfl⟩) (guides_nil .finish)
  have between : Place.afterColumn.Guides [.word .rightParen, .word .values, .word .leftParen]
      .rowValue :=
    .word (Or.inr ⟨rfl, rfl⟩) (.word ⟨rfl, rfl⟩ (.word ⟨rfl, rfl⟩ (guides_nil .rowValue)))
  have opened : Place.columnsOpen.Guides [.word .leftParen] .column :=
    .word ⟨rfl, rfl⟩ (guides_nil .column)
  exact (((opened.append columns).append between).append values).append closed

/-- Tokens for the parts of a command lead from the start to a place where it may end. -/
theorem Command.guides {command : Command} (nonempty : command.HasEntries) :
    ∃ last, last ≠ .start ∧ Place.start.Guides command.parts last := by
  have starts : ∀ kind next, (kind, next) ∈ commandWords →
      Place.start.goal.Takes kind next := fun _ _ member => member
  have bridges : ∀ kind next, (kind, next) ∈ bridgeWords →
      Place.bridgeWord.goal.Takes kind next := fun _ _ member => member
  cases command with
  | help => exact ⟨.finish, by decide, .word (starts .help .finish (by decide)) (guides_nil _)⟩
  | status => exact ⟨.finish, by decide, .word (starts .status .finish (by decide)) (guides_nil _)⟩
  | stop => exact ⟨.finish, by decide, .word (starts .stop .finish (by decide)) (guides_nil _)⟩
  | start => exact ⟨.finish, by decide, .word (starts .start .finish (by decide)) (guides_nil _)⟩
  | select table filtered =>
      obtain ⟨last, begun, guides⟩ := guides_filter .filterWord filtered ⟨rfl, rfl⟩ (by decide)
      exact ⟨last, begun, .word (starts .select .allColumns (by decide))
        (.word ⟨rfl, rfl⟩ (.word ⟨rfl, rfl⟩ (.name rfl guides)))⟩
  | subscribe table filtered =>
      obtain ⟨last, begun, guides⟩ := guides_filter .filterWord filtered ⟨rfl, rfl⟩ (by decide)
      exact ⟨last, begun, .word (starts .subscribe .allColumns (by decide))
        (.word ⟨rfl, rfl⟩ (.word ⟨rfl, rfl⟩ (.name rfl guides)))⟩
  | unsubscribe table =>
      exact ⟨.filterWord, by decide, .word (starts .unsubscribe .sourceWord (by decide))
        (.word ⟨rfl, rfl⟩ (.name rfl (guides_nil _)))⟩
  | insert table row =>
      exact ⟨.finish, by decide, .word (starts .insert .intoWord (by decide))
        (.word ⟨rfl, rfl⟩ (.name rfl (guides_row nonempty)))⟩
  | update table changes filtered =>
      obtain ⟨last, begun, guides⟩ :=
        guides_filter .afterChange filtered (Or.inr ⟨rfl, rfl⟩) (by decide)
      have someChanges : changes ≠ [] := nonempty
      have changesGuide : Place.changeColumn.Guides (listed (changes.map Entry.parts))
          .afterChange := by
        apply guides_listed
        · simpa using someChanges
        · intro item member
          obtain ⟨entry, -, rfl⟩ := List.mem_map.mp member
          exact guides_changeEntry entry
        · exact Or.inl ⟨rfl, rfl⟩
      have opened : Place.start.Guides [.word .update, .name table, .word .set] .changeColumn :=
        .word (starts .update .updateTable (by decide))
          (.name rfl (.word ⟨rfl, rfl⟩ (guides_nil _)))
      exact ⟨last, begun, (opened.append changesGuide).append guides⟩
  | delete table filtered =>
      obtain ⟨last, begun, guides⟩ := guides_filter .filterWord filtered ⟨rfl, rfl⟩ (by decide)
      exact ⟨last, begun, .word (starts .delete .sourceWord (by decide))
        (.word ⟨rfl, rfl⟩ (.name rfl guides))⟩
  | bridge action =>
      refine ⟨.finish, by decide, .word (starts .mysql .bridgeWord (by decide)) ?_⟩
      cases action with
      | connect address =>
          exact .word (bridges .connect .bridgeAddress (by decide)) (.address rfl (guides_nil _))
      | disconnect => exact .word (bridges .disconnect .finish (by decide)) (guides_nil _)
      | subscribe => exact .word (bridges .subscribe .finish (by decide)) (guides_nil _)
      | unsubscribe => exact .word (bridges .unsubscribe .finish (by decide)) (guides_nil _)

end Guides

namespace Command

/-- Tokens that say the parts of a command neither end it nor report a fault. -/
theorem isToken_of_fits {command : Command} {tokens : List Token} (nonempty : command.HasEntries)
    (fits : List.Forall₂ Part.Fits command.parts tokens) :
    ∀ token ∈ tokens, token.kind ≠ .endOfInput ∧ token.kind ≠ .error := by
  obtain ⟨last, -, guides⟩ := command.guides nonempty
  intro token member
  exact (guides tokens fits).isToken token.kind (List.mem_map_of_mem member)

/-- A text is parsed as a command exactly when it spells tokens for the parts of the command. -/
theorem parse_eq_ok {text : String} {command : Command} :
    parse text = .ok command ↔ command.HasEntries ∧
      ∃ tokens, List.Forall₂ Part.Fits command.parts tokens ∧ Spells tokens text.toList := by
  rw [parse, ofTokens_eq_ok]
  constructor
  · rintro ⟨nonempty, rest, ⟨taken, split, fits⟩, ended⟩
    have inside := isToken_of_fits nonempty fits
    exact ⟨nonempty, taken, fits, Scanner.spells_of_tokensAt split inside ended⟩
  · rintro ⟨nonempty, tokens, fits, spells⟩
    obtain ⟨last, begun, guides⟩ := command.guides nonempty
    have scanned : tokensOf text = tokens ++ [.ending] :=
      Scanner.tokensAt_of_spells spells (guides tokens fits) begun rfl
    exact ⟨nonempty, [.ending], ⟨tokens, scanned, fits⟩, rfl⟩

end Command

end TableFeed
