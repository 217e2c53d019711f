import TableFeed.Proofs.Command.Parsing

/-!
# Commands as texts

Every command can be written as a text, with its values quoted and single blanks between the tokens.
A command is well formed when its names can be read as names and its address as a bare value, and
when it has the entries that it needs. The main statement says that the well-formed commands are
those that come back when their text is parsed, and that no other command is ever parsed. So nothing
in a value, whatever it is, can change the rest of a command.
-/

namespace TableFeed

/-- The token that is written for a part. -/
def Part.token : Part → Token
  | word kind => ⟨kind, kind.spelling⟩
  | name text => ⟨.name, text⟩
  | value text => ⟨.string, String.ofList (Quoted.quote text.toList)⟩
  | address text => ⟨.value, text⟩

namespace Command

/-- The text of a command. -/
def text (command : Command) : String :=
  " ".intercalate (command.parts.map fun part => part.token.text)

/-- The columns that a command names. -/
def columns : Command → List String
  | select _ filtered | subscribe _ filtered | delete _ filtered =>
      filtered.toList.map Entry.column
  | insert _ row => row.map Entry.column
  | update _ changes filtered => (changes ++ filtered.toList).map Entry.column
  | help | status | stop | start | unsubscribe _ | bridge _ => []

/-- The names of a command are names, its address can stand without quotation marks, and it has the
entries that it needs. -/
structure WellFormed (command : Command) : Prop where
  table : ∀ table ∈ command.table?, Token.Kind.name.Spelling table.toList
  columns : ∀ column ∈ command.columns, Token.Kind.name.Spelling column.toList
  address : ∀ address, command = .bridge (.connect address) →
    Token.Kind.value.Spelling address.toList
  entries : command.HasEntries

end Command

/-- The token that is written for the part has a spelling of its kind. -/
def Part.Proper (part : Part) : Prop :=
  part.token.kind.Spelling part.token.text.toList

section Parts

variable {part : Part}

theorem fits_token (part : Part) : part.Fits part.token := by
  cases part with
  | word kind => exact rfl
  | name text => exact rfl
  | value text =>
      refine Or.inr ⟨rfl, ?_⟩
      rw [Part.token, String.toList_ofList, Quoted.unquote_quote, String.ofList_toList]
  | address text => exact rfl

theorem proper_value (text : String) : (Part.value text).Proper :=
  ⟨text.toList, String.toList_ofList⟩

theorem forall_mem_listed {property : Part → Prop} {items : List (List Part)}
    (comma : property (.word .comma)) (each : ∀ item ∈ items, ∀ part ∈ item, property part) :
    ∀ part ∈ listed items, property part := by
  induction items with
  | nil => nofun
  | cons item others ih =>
      obtain ⟨here, later⟩ := List.forall_mem_cons.mp each
      cases others with
      | nil => exact here
      | cons other others =>
          rw [listed, List.forall_mem_append, List.forall_mem_cons]
          · exact ⟨here, comma, ih later⟩
          · exact List.cons_ne_nil _ _

theorem mem_listed {items : List (List Part)} {item : List Part} (listedItem : item ∈ items)
    (member : part ∈ item) : part ∈ listed items := by
  induction items with
  | nil => nomatch listedItem
  | cons first others ih =>
      cases others with
      | nil =>
          obtain rfl := List.mem_singleton.mp listedItem
          exact member
      | cons other others =>
          rw [listed, List.mem_append, List.mem_cons]
          · rcases List.mem_cons.mp listedItem with rfl | later
            · exact Or.inl member
            · exact Or.inr (Or.inr (ih later))
          · exact List.cons_ne_nil _ _

theorem proper_entry {entry : Entry}
    (column : Token.Kind.name.Spelling entry.column.toList) :
    ∀ part ∈ entry.parts, part.Proper := by
  have equal : (Part.word .equal).Proper := rfl
  rw [Entry.parts, List.forall_mem_cons, List.forall_mem_cons, List.forall_mem_singleton]
  exact ⟨column, equal, proper_value entry.value⟩

theorem proper_filter {filtered : Option Entry}
    (columns : ∀ column ∈ filtered.toList.map Entry.column,
      Token.Kind.name.Spelling column.toList) :
    ∀ part ∈ filterParts filtered, part.Proper := by
  cases filtered with
  | none => nofun
  | some entry =>
      have word : (Part.word .whereWord).Proper := rfl
      exact List.forall_mem_cons.mpr
        ⟨word, proper_entry (columns entry.column (List.mem_singleton_self _))⟩

theorem proper_changes {changes : List Entry}
    (columns : ∀ column ∈ changes.map Entry.column, Token.Kind.name.Spelling column.toList) :
    ∀ part ∈ listed (changes.map Entry.parts), part.Proper := by
  apply forall_mem_listed
  · exact rfl
  · intro item member
    obtain ⟨entry, inside, rfl⟩ := List.mem_map.mp member
    exact proper_entry (columns entry.column (List.mem_map_of_mem inside))

theorem proper_row {row : List Entry}
    (columns : ∀ column ∈ row.map Entry.column, Token.Kind.name.Spelling column.toList) :
    ∀ part ∈ rowParts row, part.Proper := by
  have names : ∀ part ∈ listed (row.map fun entry => [.name entry.column]), part.Proper := by
    apply forall_mem_listed
    · exact rfl
    · intro item member
      obtain ⟨entry, inside, rfl⟩ := List.mem_map.mp member
      exact List.forall_mem_singleton.mpr (columns entry.column (List.mem_map_of_mem inside))
  have values : ∀ part ∈ listed (row.map fun entry => [.value entry.value]), part.Proper := by
    apply forall_mem_listed
    · exact rfl
    · intro item member
      obtain ⟨entry, -, rfl⟩ := List.mem_map.mp member
      exact List.forall_mem_singleton.mpr (proper_value entry.value)
  have between : ∀ part ∈ [Part.word .rightParen, .word .values, .word .leftParen],
      part.Proper := by
    rw [List.forall_mem_cons, List.forall_mem_cons, List.forall_mem_singleton]
    exact ⟨rfl, rfl, rfl⟩
  simp only [rowParts, List.forall_mem_append]
  exact ⟨⟨⟨⟨List.forall_mem_singleton.mpr rfl, names⟩, between⟩, values⟩,
    List.forall_mem_singleton.mpr rfl⟩

theorem proper_words (kinds : List Token.Kind) {parts : List Part}
    (words : ∀ kind ∈ kinds, kind.isKeyword = true ∨ kind.isMark = true)
    (proper : ∀ part ∈ parts, part.Proper) :
    ∀ part ∈ kinds.map Part.word ++ parts, part.Proper := by
  refine List.forall_mem_append.mpr ⟨?_, proper⟩
  intro part member
  obtain ⟨kind, inside, rfl⟩ := List.mem_map.mp member
  rcases words kind inside with keyword | mark
  · exact (spelling_eq_of_isKeyword keyword).mpr rfl
  · exact (spelling_eq_of_isMark mark).mpr rfl

theorem Command.WellFormed.proper {command : Command} (wellFormed : command.WellFormed) :
    ∀ part ∈ command.parts, part.Proper := by
  obtain ⟨table, columns, address, -⟩ := wellFormed
  cases command with
  | help => exact List.forall_mem_singleton.mpr rfl
  | status => exact List.forall_mem_singleton.mpr rfl
  | stop => exact List.forall_mem_singleton.mpr rfl
  | start => exact List.forall_mem_singleton.mpr rfl
  | select name filtered =>
      have tableProper : (Part.name name).Proper := table name rfl
      exact proper_words [.select, .star, .fromWord] (by decide)
        (List.forall_mem_cons.mpr ⟨tableProper, proper_filter columns⟩)
  | subscribe name filtered =>
      have tableProper : (Part.name name).Proper := table name rfl
      exact proper_words [.subscribe, .star, .fromWord] (by decide)
        (List.forall_mem_cons.mpr ⟨tableProper, proper_filter columns⟩)
  | unsubscribe name =>
      have tableProper : (Part.name name).Proper := table name rfl
      exact proper_words [.unsubscribe, .fromWord] (by decide)
        (List.forall_mem_singleton.mpr tableProper)
  | insert name row =>
      have tableProper : (Part.name name).Proper := table name rfl
      exact proper_words [.insert, .into] (by decide)
        (List.forall_mem_cons.mpr ⟨tableProper, proper_row columns⟩)
  | update name changes filtered =>
      have tableProper : (Part.name name).Proper := table name rfl
      have setProper : (Part.word .set).Proper := rfl
      simp only [Command.columns, List.map_append, List.forall_mem_append] at columns
      have changesProper := List.forall_mem_append.mpr
        ⟨proper_changes columns.1, proper_filter columns.2⟩
      have setBefore := List.forall_mem_cons.mpr ⟨setProper, changesProper⟩
      rw [Command.parts, List.append_assoc]
      exact proper_words [.update] (by decide) (List.forall_mem_cons.mpr ⟨tableProper, setBefore⟩)
  | delete name filtered =>
      have tableProper : (Part.name name).Proper := table name rfl
      exact proper_words [.delete, .fromWord] (by decide)
        (List.forall_mem_cons.mpr ⟨tableProper, proper_filter columns⟩)
  | bridge action =>
      cases action with
      | connect target =>
          have addressProper : (Part.address target).Proper := address target rfl
          exact proper_words [.mysql, .connect] (by decide)
            (List.forall_mem_singleton.mpr addressProper)
      | disconnect => exact proper_words [.mysql, .disconnect] (by decide) nofun
      | subscribe => exact proper_words [.mysql, .subscribe] (by decide) nofun
      | unsubscribe => exact proper_words [.mysql, .unsubscribe] (by decide) nofun

theorem Spells.cons_blank {tokens : List Token} {text : List Char} (spells : Spells tokens text) :
    Spells tokens (' ' :: text) := by
  have space : isBlank ' ' = true := by
    decide
  cases spells with
  | blank blank => exact .blank (List.forall_mem_cons.mpr ⟨space, blank⟩)
  | token blank spelled ends others =>
      exact .token (List.forall_mem_cons.mpr ⟨space, blank⟩) spelled ends others

theorem endsBefore_space (kind : Token.Kind) (later : List Char) :
    kind.EndsBefore isBlank [] ∧ kind.EndsBefore isBlank (' ' :: later) := by
  cases kind <;> simp [Token.Kind.EndsBefore] <;> decide

/-- Parts that are written with single spaces between them are spelled by the text. -/
theorem spells_intercalate {parts : List Part} (proper : ∀ part ∈ parts, part.Proper) :
    Spells (parts.map Part.token)
      ([' '].intercalate (parts.map fun part => part.token.text.toList)) := by
  induction parts with
  | nil => exact .blank nofun
  | cons part others ih =>
      obtain ⟨here, later⟩ := List.forall_mem_cons.mp proper
      cases others with
      | nil =>
          have ends := (endsBefore_space part.token.kind []).1
          simpa using @Spells.token part.token [] [] [] nofun here ends (.blank nofun)
      | cons other others =>
          have ends := (endsBefore_space part.token.kind
            ([' '].intercalate ((other :: others).map fun part => part.token.text.toList))).2
          simpa using @Spells.token part.token _ [] _ nofun here ends (ih later).cons_blank

theorem Spells.spelled {tokens : List Token} {text : List Char} (spells : Spells tokens text) :
    ∀ token ∈ tokens, token.kind.Spelling token.text.toList := by
  induction spells with
  | blank => nofun
  | token _ spelled _ _ ih => exact List.forall_mem_cons.mpr ⟨spelled, ih⟩

theorem exists_fits {parts : List Part} {tokens : List Token}
    (fits : List.Forall₂ Part.Fits parts tokens) (member : part ∈ parts) :
    ∃ token ∈ tokens, part.Fits token := by
  induction fits with
  | nil => nomatch member
  | @cons first token others tokens here _ ih =>
      rcases List.mem_cons.mp member with rfl | later
      · exact ⟨token, List.mem_cons_self, here⟩
      · obtain ⟨found, inside, foundFits⟩ := ih later
        exact ⟨found, List.mem_cons_of_mem _ inside, foundFits⟩

end Parts

namespace Command

variable {command : Command}

theorem mem_parts_of_table {table : String} (named : table ∈ command.table?) :
    .name table ∈ command.parts := by
  cases command <;> simp_all [table?, parts]

theorem mem_filterParts {filtered : Option Entry} {column : String}
    (named : column ∈ filtered.toList.map Entry.column) :
    .name column ∈ filterParts filtered := by
  cases filtered with
  | none => nomatch named
  | some entry =>
      obtain rfl := List.mem_singleton.mp named
      simp [filterParts, Entry.parts]

theorem mem_changesParts {changes : List Entry} {column : String}
    (named : column ∈ changes.map Entry.column) :
    .name column ∈ listed (changes.map Entry.parts) := by
  obtain ⟨entry, member, rfl⟩ := List.mem_map.mp named
  exact mem_listed (List.mem_map_of_mem member) List.mem_cons_self

theorem mem_rowParts {row : List Entry} {column : String}
    (named : column ∈ row.map Entry.column) : .name column ∈ rowParts row := by
  obtain ⟨entry, member, rfl⟩ := List.mem_map.mp named
  have inside : .name entry.column ∈ listed (row.map fun entry => [.name entry.column]) :=
    mem_listed (List.mem_map.mpr ⟨entry, member, rfl⟩) (List.mem_singleton_self _)
  simp [rowParts, inside]

theorem mem_parts_of_columns {column : String} (named : column ∈ command.columns) :
    .name column ∈ command.parts := by
  cases command with
  | select table filtered => exact List.mem_append_right _ (mem_filterParts named)
  | subscribe table filtered => exact List.mem_append_right _ (mem_filterParts named)
  | delete table filtered => exact List.mem_append_right _ (mem_filterParts named)
  | insert table row => exact List.mem_append_right _ (mem_rowParts named)
  | update table changes filtered =>
      rw [columns, List.map_append, List.mem_append] at named
      rcases named with changed | tested
      · exact List.mem_append_left _ (List.mem_append_right _ (mem_changesParts changed))
      · exact List.mem_append_right _ (mem_filterParts tested)
  | _ => nomatch named

/-- A command that is parsed from some text is well formed. -/
theorem wellFormed_of_parse {text : String} (parsed : parse text = .ok command) :
    command.WellFormed := by
  obtain ⟨nonempty, tokens, fits, spells⟩ := parse_eq_ok.mp parsed
  have spelled : ∀ part ∈ command.parts, ∀ kind written,
      (∀ token, part.Fits token → token = ⟨kind, written⟩) →
      kind.Spelling written.toList := by
    intro part member kind written only
    obtain ⟨token, inside, tokenFits⟩ := exists_fits fits member
    obtain rfl := only token tokenFits
    exact spells.spelled _ inside
  refine ⟨?_, ?_, ?_, nonempty⟩
  · intro table named
    exact spelled _ (mem_parts_of_table named) .name table fun _ fits => fits
  · intro column named
    exact spelled _ (mem_parts_of_columns named) .name column fun _ fits => fits
  · rintro address rfl
    exact spelled (.address address) (by simp [parts, BridgeAction.parts]) .value address
      fun _ fits => fits

/-- A well-formed command comes back when its text is parsed. -/
theorem WellFormed.parse_text (wellFormed : command.WellFormed) :
    parse command.text = .ok command := by
  refine parse_eq_ok.mpr ⟨wellFormed.entries, command.parts.map Part.token, ?_, ?_⟩
  · refine List.forall₂_map_right_iff.mpr ?_
    exact List.forall₂_same.mpr fun part _ => fits_token part
  · have spells := spells_intercalate wellFormed.proper
    rwa [text, String.toList_intercalate, List.map_map]

/-- The well-formed commands are those that come back when their text is parsed, and no other
command is ever parsed. -/
theorem parse_text_iff_wellFormed (command : Command) :
    (parse command.text = .ok command ↔ command.WellFormed) ∧
      ((∃ text, parse text = .ok command) ↔ command.WellFormed) := by
  refine ⟨⟨wellFormed_of_parse, WellFormed.parse_text⟩, ?_, ?_⟩
  · rintro ⟨text, parsed⟩
    exact wellFormed_of_parse parsed
  · intro wellFormed
    exact ⟨command.text, wellFormed.parse_text⟩

end Command

end TableFeed
