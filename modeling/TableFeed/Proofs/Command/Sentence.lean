import TableFeed.Proofs.Command.Parsing

/-!
# The language of commands

The sentences of the language are lists of kinds of tokens. A text is a command when it spells the
tokens of a sentence, with blanks around them: a keyword has a blank or the end of the text directly
behind it, no letter or digit stands directly behind a name, a bare value ends where a value has to
end, and no quotation mark stands directly behind a quoted value. The main statement says that
exactly these texts are parsed.
-/

namespace TableFeed

/-- A value is bare or quoted. -/
def Token.Kind.IsValue (kind : Token.Kind) : Prop :=
  kind = .value ∨ kind = .string

namespace Sentence

/-- A filter that may be missing. -/
inductive Filter : List Token.Kind → Prop
  | none : Filter []
  | some {kind : Token.Kind} (isValue : kind.IsValue) :
      Filter [.whereWord, .name, .equal, kind]

/-- Some changes, with commas between them. -/
inductive Changes : List Token.Kind → Prop
  | one {kind : Token.Kind} (isValue : kind.IsValue) : Changes [.name, .equal, kind]
  | more {kind : Token.Kind} {others : List Token.Kind} (isValue : kind.IsValue)
      (changes : Changes others) : Changes (.name :: .equal :: kind :: .comma :: others)

/-- Some names and as many values, with commas between them. -/
inductive Row : List Token.Kind → List Token.Kind → Prop
  | one {kind : Token.Kind} (isValue : kind.IsValue) : Row [.name] [kind]
  | more {kind : Token.Kind} {names values : List Token.Kind} (isValue : kind.IsValue)
      (row : Row names values) : Row (.name :: .comma :: names) (kind :: .comma :: values)

end Sentence

/-- The sentences of the language of commands. -/
inductive Sentence : List Token.Kind → Prop
  | help : Sentence [.help]
  | status : Sentence [.status]
  | stop : Sentence [.stop]
  | start : Sentence [.start]
  | select {filter : List Token.Kind} (isFilter : Sentence.Filter filter) :
      Sentence ([.select, .star, .fromWord, .name] ++ filter)
  | subscribe {filter : List Token.Kind} (isFilter : Sentence.Filter filter) :
      Sentence ([.subscribe, .star, .fromWord, .name] ++ filter)
  | unsubscribe : Sentence [.unsubscribe, .fromWord, .name]
  | delete {filter : List Token.Kind} (isFilter : Sentence.Filter filter) :
      Sentence ([.delete, .fromWord, .name] ++ filter)
  | update {changes filter : List Token.Kind} (areChanges : Sentence.Changes changes)
      (isFilter : Sentence.Filter filter) :
      Sentence ([.update, .name, .set] ++ changes ++ filter)
  | insert {names values : List Token.Kind} (isRow : Sentence.Row names values) :
      Sentence ([.insert, .into, .name, .leftParen] ++ names ++
        [.rightParen, .values, .leftParen] ++ values ++ [.rightParen])
  | bridgeConnect : Sentence [.mysql, .connect, .value]
  | bridgeDisconnect : Sentence [.mysql, .disconnect]
  | bridgeSubscribe : Sentence [.mysql, .subscribe]
  | bridgeUnsubscribe : Sentence [.mysql, .unsubscribe]

/-- A token of the kind may say the part. -/
def Part.Admits : Part → Token.Kind → Prop
  | word kind, said => said = kind
  | name _, said => said = .name
  | value _, said => said.IsValue
  | address _, said => said = .value

theorem Part.Fits.admits {part : Part} {token : Token} (fits : part.Fits token) :
    part.Admits token.kind := by
  cases part with
  | word kind => exact fits
  | name text => exact congrArg Token.kind fits
  | value text => exact fits.imp (congrArg Token.kind) And.left
  | address text => exact congrArg Token.kind fits

section Admits

variable {kinds names values : List Token.Kind}

theorem filter_of_admits {filtered : Option Entry}
    (admits : List.Forall₂ Part.Admits (filterParts filtered) kinds) : Sentence.Filter kinds := by
  cases filtered with
  | none =>
      cases admits
      exact .none
  | some entry =>
      obtain _ | ⟨rfl, _ | ⟨rfl, _ | ⟨rfl, _ | ⟨isValue, _ | _⟩⟩⟩⟩ := admits
      exact .some isValue

theorem changes_of_admits {changes : List Entry} (nonempty : changes ≠ [])
    (admits : List.Forall₂ Part.Admits (listed (changes.map Entry.parts)) kinds) :
    Sentence.Changes kinds := by
  induction changes generalizing kinds with
  | nil => exact (nonempty rfl).elim
  | cons entry others ih =>
      cases others with
      | nil =>
          obtain _ | ⟨rfl, _ | ⟨rfl, _ | ⟨isValue, _ | _⟩⟩⟩ := admits
          exact .one isValue
      | cons other others =>
          obtain _ | ⟨rfl, _ | ⟨rfl, _ | ⟨isValue, _ | ⟨rfl, admits⟩⟩⟩⟩ := admits
          exact .more isValue (ih (List.cons_ne_nil _ _) admits)

theorem row_of_admits {row : List Entry} (nonempty : row ≠ [])
    (namesAdmit : List.Forall₂ Part.Admits (listed (row.map fun entry => [.name entry.column]))
      names)
    (valuesAdmit : List.Forall₂ Part.Admits (listed (row.map fun entry => [.value entry.value]))
      values) : Sentence.Row names values := by
  induction row generalizing names values with
  | nil => exact (nonempty rfl).elim
  | cons entry others ih =>
      cases others with
      | nil =>
          obtain _ | ⟨rfl, _ | _⟩ := namesAdmit
          obtain _ | ⟨isValue, _ | _⟩ := valuesAdmit
          exact .one isValue
      | cons other others =>
          obtain _ | ⟨rfl, _ | ⟨rfl, namesAdmit⟩⟩ := namesAdmit
          obtain _ | ⟨isValue, _ | ⟨rfl, valuesAdmit⟩⟩ := valuesAdmit
          exact .more isValue (ih (List.cons_ne_nil _ _) namesAdmit valuesAdmit)

theorem sentence_of_admits {command : Command} (nonempty : command.HasEntries)
    (admits : List.Forall₂ Part.Admits command.parts kinds) : Sentence kinds := by
  cases command with
  | help =>
      obtain _ | ⟨rfl, _ | _⟩ := admits
      exact .help
  | status =>
      obtain _ | ⟨rfl, _ | _⟩ := admits
      exact .status
  | stop =>
      obtain _ | ⟨rfl, _ | _⟩ := admits
      exact .stop
  | start =>
      obtain _ | ⟨rfl, _ | _⟩ := admits
      exact .start
  | select table filtered =>
      obtain _ | ⟨rfl, _ | ⟨rfl, _ | ⟨rfl, _ | ⟨rfl, admits⟩⟩⟩⟩ := admits
      exact .select (filter_of_admits admits)
  | subscribe table filtered =>
      obtain _ | ⟨rfl, _ | ⟨rfl, _ | ⟨rfl, _ | ⟨rfl, admits⟩⟩⟩⟩ := admits
      exact .subscribe (filter_of_admits admits)
  | unsubscribe table =>
      obtain _ | ⟨rfl, _ | ⟨rfl, _ | ⟨rfl, _ | _⟩⟩⟩ := admits
      exact .unsubscribe
  | insert table row =>
      obtain _ | ⟨rfl, _ | ⟨rfl, _ | ⟨rfl, admits⟩⟩⟩ := admits
      change List.Forall₂ Part.Admits (rowParts row) _ at admits
      rw [rowParts] at admits
      obtain ⟨_, _, rfl, admits, closed⟩ := forall₂_append_left_iff.mp admits
      obtain ⟨_, values, rfl, admits, valuesAdmit⟩ := forall₂_append_left_iff.mp admits
      obtain ⟨_, _, rfl, admits, between⟩ := forall₂_append_left_iff.mp admits
      obtain ⟨_, names, rfl, opened, namesAdmit⟩ := forall₂_append_left_iff.mp admits
      obtain _ | ⟨rfl, _ | _⟩ := opened
      obtain _ | ⟨rfl, _ | ⟨rfl, _ | ⟨rfl, _ | _⟩⟩⟩ := between
      obtain _ | ⟨rfl, _ | _⟩ := closed
      exact .insert (row_of_admits nonempty namesAdmit valuesAdmit)
  | update table changes filtered =>
      obtain ⟨_, filter, rfl, admits, filterAdmits⟩ := forall₂_append_left_iff.mp admits
      obtain ⟨words, changes, rfl, admits, changesAdmit⟩ := forall₂_append_left_iff.mp admits
      obtain _ | ⟨rfl, _ | ⟨rfl, _ | ⟨rfl, _ | _⟩⟩⟩ := admits
      exact .update (changes_of_admits nonempty changesAdmit) (filter_of_admits filterAdmits)
  | delete table filtered =>
      obtain _ | ⟨rfl, _ | ⟨rfl, _ | ⟨rfl, admits⟩⟩⟩ := admits
      exact .delete (filter_of_admits admits)
  | bridge action =>
      cases action with
      | connect address =>
          obtain _ | ⟨rfl, _ | ⟨rfl, _ | ⟨rfl, _ | _⟩⟩⟩ := admits
          exact .bridgeConnect
      | disconnect =>
          obtain _ | ⟨rfl, _ | ⟨rfl, _ | _⟩⟩ := admits
          exact .bridgeDisconnect
      | subscribe =>
          obtain _ | ⟨rfl, _ | ⟨rfl, _ | _⟩⟩ := admits
          exact .bridgeSubscribe
      | unsubscribe =>
          obtain _ | ⟨rfl, _ | ⟨rfl, _ | _⟩⟩ := admits
          exact .bridgeUnsubscribe

end Admits

section Fits

variable {tokens : List Token} {kinds : List Token.Kind}

theorem exists_value_of_isValue {token : Token} (isValue : token.kind.IsValue) :
    ∃ text, (Part.value text).Fits token := by
  rcases isValue with bare | quoted
  · exact ⟨token.text, Or.inl (by rw [← bare])⟩
  · exact ⟨_, Or.inr ⟨quoted, rfl⟩⟩

theorem fits_name {token : Token} (isName : token.kind = .name) :
    (Part.name token.text).Fits token := by
  rw [Part.Fits, ← isName]

theorem exists_filter (isFilter : Sentence.Filter kinds) (same : tokens.map Token.kind = kinds) :
    ∃ filtered, List.Forall₂ Part.Fits (filterParts filtered) tokens := by
  cases isFilter with
  | none =>
      obtain rfl := List.map_eq_nil_iff.mp same
      exact ⟨none, .nil⟩
  | some isValue =>
      obtain ⟨whereToken, _, rfl, isWhere, same⟩ := List.map_eq_cons_iff.mp same
      obtain ⟨name, _, rfl, isName, same⟩ := List.map_eq_cons_iff.mp same
      obtain ⟨equal, _, rfl, isEqual, same⟩ := List.map_eq_cons_iff.mp same
      obtain ⟨value, _, rfl, sameKind, same⟩ := List.map_eq_cons_iff.mp same
      obtain rfl := List.map_eq_nil_iff.mp same
      obtain ⟨text, fits⟩ := exists_value_of_isValue (sameKind ▸ isValue)
      exact ⟨some ⟨name.text, text⟩,
        .cons isWhere (.cons (fits_name isName) (.cons isEqual (.cons fits .nil)))⟩

theorem exists_changes (areChanges : Sentence.Changes kinds)
    (same : tokens.map Token.kind = kinds) :
    ∃ changes : List Entry, changes ≠ [] ∧
      List.Forall₂ Part.Fits (listed (changes.map Entry.parts)) tokens := by
  induction areChanges generalizing tokens with
  | one isValue =>
      obtain ⟨name, _, rfl, isName, same⟩ := List.map_eq_cons_iff.mp same
      obtain ⟨equal, _, rfl, isEqual, same⟩ := List.map_eq_cons_iff.mp same
      obtain ⟨value, _, rfl, sameKind, same⟩ := List.map_eq_cons_iff.mp same
      obtain rfl := List.map_eq_nil_iff.mp same
      obtain ⟨text, fits⟩ := exists_value_of_isValue (sameKind ▸ isValue)
      exact ⟨[⟨name.text, text⟩], List.cons_ne_nil _ _,
        .cons (fits_name isName) (.cons isEqual (.cons fits .nil))⟩
  | more isValue _ ih =>
      obtain ⟨name, _, rfl, isName, same⟩ := List.map_eq_cons_iff.mp same
      obtain ⟨equal, _, rfl, isEqual, same⟩ := List.map_eq_cons_iff.mp same
      obtain ⟨value, _, rfl, sameKind, same⟩ := List.map_eq_cons_iff.mp same
      obtain ⟨comma, others, rfl, isComma, same⟩ := List.map_eq_cons_iff.mp same
      obtain ⟨text, fits⟩ := exists_value_of_isValue (sameKind ▸ isValue)
      obtain ⟨_ | ⟨other, changes⟩, nonempty, othersFit⟩ := ih same
      · exact (nonempty rfl).elim
      · exact ⟨⟨name.text, text⟩ :: other :: changes, List.cons_ne_nil _ _,
          .cons (fits_name isName) (.cons isEqual (.cons fits (.cons isComma othersFit)))⟩

theorem exists_row_of_isRow {nameTokens valueTokens : List Token} {names values : List Token.Kind}
    (isRow : Sentence.Row names values) (sameNames : nameTokens.map Token.kind = names)
    (sameValues : valueTokens.map Token.kind = values) :
    ∃ row : List Entry, row ≠ [] ∧
      List.Forall₂ Part.Fits (listed (row.map fun entry => [.name entry.column])) nameTokens ∧
      List.Forall₂ Part.Fits (listed (row.map fun entry => [.value entry.value])) valueTokens := by
  induction isRow generalizing nameTokens valueTokens with
  | one isValue =>
      obtain ⟨name, _, rfl, isName, sameNames⟩ := List.map_eq_cons_iff.mp sameNames
      obtain rfl := List.map_eq_nil_iff.mp sameNames
      obtain ⟨value, _, rfl, sameKind, sameValues⟩ := List.map_eq_cons_iff.mp sameValues
      obtain rfl := List.map_eq_nil_iff.mp sameValues
      obtain ⟨text, fits⟩ := exists_value_of_isValue (sameKind ▸ isValue)
      exact ⟨[⟨name.text, text⟩], List.cons_ne_nil _ _, .cons (fits_name isName) .nil,
        .cons fits .nil⟩
  | more isValue _ ih =>
      obtain ⟨name, _, rfl, isName, sameNames⟩ := List.map_eq_cons_iff.mp sameNames
      obtain ⟨nameComma, _, rfl, isNameComma, sameNames⟩ := List.map_eq_cons_iff.mp sameNames
      obtain ⟨value, _, rfl, sameKind, sameValues⟩ := List.map_eq_cons_iff.mp sameValues
      obtain ⟨valueComma, _, rfl, isValueComma, sameValues⟩ := List.map_eq_cons_iff.mp sameValues
      obtain ⟨text, fits⟩ := exists_value_of_isValue (sameKind ▸ isValue)
      obtain ⟨_ | ⟨other, row⟩, nonempty, namesFit, valuesFit⟩ := ih sameNames sameValues
      · exact (nonempty rfl).elim
      · exact ⟨⟨name.text, text⟩ :: other :: row, List.cons_ne_nil _ _,
          .cons (fits_name isName) (.cons isNameComma namesFit),
          .cons fits (.cons isValueComma valuesFit)⟩

theorem fits_words (same : tokens.map Token.kind = kinds) :
    List.Forall₂ Part.Fits (kinds.map Part.word) tokens := by
  subst kinds
  induction tokens with
  | nil => exact .nil
  | cons token tokens ih => exact .cons rfl ih

theorem exists_table (kinds : List Token.Kind) (same : tokens.map Token.kind = kinds ++ [.name]) :
    ∃ table, List.Forall₂ Part.Fits (kinds.map Part.word ++ [.name table]) tokens := by
  obtain ⟨words, _, rfl, sameWords, sameName⟩ := List.map_eq_append_iff.mp same
  obtain ⟨name, _, rfl, isName, nothing⟩ := List.map_eq_cons_iff.mp sameName
  obtain rfl := List.map_eq_nil_iff.mp nothing
  exact ⟨name.text, List.rel_append (fits_words sameWords) (.cons (fits_name isName) .nil)⟩

/-- Tokens of the kinds of a sentence say the parts of some command. -/
theorem exists_command (sentence : Sentence kinds) (same : tokens.map Token.kind = kinds) :
    ∃ command : Command, command.HasEntries ∧
      List.Forall₂ Part.Fits command.parts tokens := by
  cases sentence with
  | help => exact ⟨.help, trivial, fits_words same⟩
  | status => exact ⟨.status, trivial, fits_words same⟩
  | stop => exact ⟨.stop, trivial, fits_words same⟩
  | start => exact ⟨.start, trivial, fits_words same⟩
  | select isFilter =>
      obtain ⟨words, others, rfl, sameWords, sameFilter⟩ := List.map_eq_append_iff.mp same
      obtain ⟨table, tableFits⟩ := exists_table [.select, .star, .fromWord] sameWords
      obtain ⟨filtered, filterFits⟩ := exists_filter isFilter sameFilter
      exact ⟨.select table filtered, trivial, List.rel_append tableFits filterFits⟩
  | subscribe isFilter =>
      obtain ⟨words, others, rfl, sameWords, sameFilter⟩ := List.map_eq_append_iff.mp same
      obtain ⟨table, tableFits⟩ := exists_table [.subscribe, .star, .fromWord] sameWords
      obtain ⟨filtered, filterFits⟩ := exists_filter isFilter sameFilter
      exact ⟨.subscribe table filtered, trivial, List.rel_append tableFits filterFits⟩
  | unsubscribe =>
      obtain ⟨table, tableFits⟩ := exists_table [.unsubscribe, .fromWord] same
      exact ⟨.unsubscribe table, trivial, tableFits⟩
  | delete isFilter =>
      obtain ⟨words, others, rfl, sameWords, sameFilter⟩ := List.map_eq_append_iff.mp same
      obtain ⟨table, tableFits⟩ := exists_table [.delete, .fromWord] sameWords
      obtain ⟨filtered, filterFits⟩ := exists_filter isFilter sameFilter
      exact ⟨.delete table filtered, trivial, List.rel_append tableFits filterFits⟩
  | update areChanges isFilter =>
      obtain ⟨_, others, rfl, sameFront, sameFilter⟩ := List.map_eq_append_iff.mp same
      obtain ⟨words, _, rfl, sameWords, sameChanges⟩ := List.map_eq_append_iff.mp sameFront
      obtain ⟨update, _, rfl, isUpdate, sameWords⟩ := List.map_eq_cons_iff.mp sameWords
      obtain ⟨name, _, rfl, isName, sameWords⟩ := List.map_eq_cons_iff.mp sameWords
      obtain ⟨changes, nonempty, changesFit⟩ := exists_changes areChanges sameChanges
      obtain ⟨filtered, filterFits⟩ := exists_filter isFilter sameFilter
      have wordsFit : List.Forall₂ Part.Fits [.word .update, .name name.text, .word .set]
          (update :: name :: _) := .cons isUpdate (.cons (fits_name isName) (fits_words sameWords))
      exact ⟨.update name.text changes filtered, nonempty,
        List.rel_append (List.rel_append wordsFit changesFit) filterFits⟩
  | insert isRow =>
      obtain ⟨_, closed, rfl, same, sameClosed⟩ := List.map_eq_append_iff.mp same
      obtain ⟨_, values, rfl, same, sameValues⟩ := List.map_eq_append_iff.mp same
      obtain ⟨_, between, rfl, same, sameBetween⟩ := List.map_eq_append_iff.mp same
      obtain ⟨words, names, rfl, sameWords, sameNames⟩ := List.map_eq_append_iff.mp same
      obtain ⟨insert, _, rfl, isInsert, sameWords⟩ := List.map_eq_cons_iff.mp sameWords
      obtain ⟨into, _, rfl, isInto, sameWords⟩ := List.map_eq_cons_iff.mp sameWords
      obtain ⟨name, _, rfl, isName, sameWords⟩ := List.map_eq_cons_iff.mp sameWords
      obtain ⟨row, nonempty, namesFit, valuesFit⟩ := exists_row_of_isRow isRow sameNames sameValues
      have columnsFit := List.rel_append (fits_words sameWords) namesFit
      have openedFits := List.rel_append columnsFit (fits_words sameBetween)
      have rowFits := List.rel_append (List.rel_append openedFits valuesFit) (fits_words sameClosed)
      exact ⟨.insert name.text row, nonempty,
        .cons isInsert (.cons isInto (.cons (fits_name isName) rowFits))⟩
  | bridgeConnect =>
      obtain ⟨mysql, _, rfl, isMysql, same⟩ := List.map_eq_cons_iff.mp same
      obtain ⟨connect, _, rfl, isConnect, same⟩ := List.map_eq_cons_iff.mp same
      obtain ⟨address, _, rfl, isAddress, same⟩ := List.map_eq_cons_iff.mp same
      obtain rfl := List.map_eq_nil_iff.mp same
      have addressFits : (Part.address address.text).Fits address := by
        rw [Part.Fits, ← isAddress]
      exact ⟨.bridge (.connect address.text), trivial,
        .cons isMysql (.cons isConnect (.cons addressFits .nil))⟩
  | bridgeDisconnect => exact ⟨.bridge .disconnect, trivial, fits_words same⟩
  | bridgeSubscribe => exact ⟨.bridge .subscribe, trivial, fits_words same⟩
  | bridgeUnsubscribe => exact ⟨.bridge .unsubscribe, trivial, fits_words same⟩

end Fits

/-- A text is parsed as a command exactly when it spells the tokens of a sentence. -/
theorem Command.parse_isOk_iff (text : String) :
    (∃ command, Command.parse text = .ok command) ↔
      ∃ tokens, Sentence (tokens.map Token.kind) ∧ Spells tokens text.toList := by
  constructor
  · rintro ⟨command, parsed⟩
    obtain ⟨nonempty, tokens, fits, spells⟩ := parse_eq_ok.mp parsed
    have admits : List.Forall₂ Part.Admits command.parts (tokens.map Token.kind) :=
      List.forall₂_map_right_iff.mpr (fits.imp fun _ _ => Part.Fits.admits)
    exact ⟨tokens, sentence_of_admits nonempty admits, spells⟩
  · rintro ⟨tokens, sentence, spells⟩
    obtain ⟨command, nonempty, fits⟩ := exists_command sentence rfl
    exact ⟨command, parse_eq_ok.mpr ⟨nonempty, tokens, fits, spells⟩⟩

end TableFeed
