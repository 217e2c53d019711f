import TableFeed.Proofs.Command.RoundTrip
import TableFeed.Proofs.Command.Sentence

/-!
# Commands from any tokens

The readers do not know where their tokens come from. So any list of tokens may be handed to them,
also one that no text is ever split into. The main statement says that the kinds of the tokens in
front of the end decide whether the list stands for a command, that the command is then the one
whose parts these tokens say one by one, and that it has all their names and values, in order.
-/

namespace TableFeed

namespace Token

/-- The name that a token says. -/
def name? (token : Token) : Option String :=
  if token.kind = .name then some token.text else none

/-- The value that a token says. A quoted value loses its quotation marks. -/
def value? (token : Token) : Option String :=
  match token.kind with
  | .value => some token.text
  | .string => some (String.ofList (Quoted.unquote token.text.toList))
  | _ => none

/-- The tokens in front of the end of the command. -/
def beforeEnding (tokens : List Token) : List Token :=
  tokens.takeWhile fun token => !token.isEnding

theorem beforeEnding_append {words rest : List Token}
    (inside : ∀ token ∈ words, token.kind ≠ .endOfInput)
    (ended : (Reader.front rest).kind = .endOfInput) : beforeEnding (words ++ rest) = words := by
  have further : ∀ token ∈ words, !token.isEnding := by
    intro token member
    simpa [isEnding] using inside token member
  have nothing : rest.takeWhile (fun token => !token.isEnding) = [] := by
    cases rest with
    | nil => rfl
    | cons token later =>
        have isLast : token.kind = .endOfInput := ended
        simp [isEnding, isLast]
  rw [beforeEnding, List.takeWhile_append_of_pos further, nothing, List.append_nil]

/-- Behind the tokens in front of the end stands the end. -/
theorem exists_append_beforeEnding (tokens : List Token) :
    ∃ rest, tokens = beforeEnding tokens ++ rest ∧ (Reader.front rest).kind = .endOfInput := by
  refine ⟨tokens.dropWhile fun token => !token.isEnding, List.takeWhile_append_dropWhile.symm, ?_⟩
  cases found : tokens.dropWhile fun token => !token.isEnding with
  | nil => rfl
  | cons token later =>
      have stopped := List.head?_dropWhile_not (fun token => !token.isEnding) tokens
      rw [found] at stopped
      have isLast : token.kind = .endOfInput := by
        simpa [isEnding] using stopped
      exact isLast

end Token

namespace Command

/-- The names in a command: its table and then its columns. -/
def names (command : Command) : List String :=
  command.table?.toList ++ command.columns

/-- The values in a command. -/
def values : Command → List String
  | select _ filtered | subscribe _ filtered | delete _ filtered =>
      filtered.toList.map Entry.value
  | insert _ row => row.map Entry.value
  | update _ changes filtered => (changes ++ filtered.toList).map Entry.value
  | bridge (.connect address) => [address]
  | help | status | stop | start | unsubscribe _ | bridge _ => []

/-- The tokens say the parts of the command, one token for each part. -/
structure SaidBy (command : Command) (tokens : List Token) : Prop where
  entries : command.HasEntries
  parts : List.Forall₂ Part.Fits command.parts tokens

end Command

namespace Part

/-- The name that a part is about. -/
def name? : Part → Option String
  | name text => some text
  | _ => none

/-- The value that a part is about. -/
def value? : Part → Option String
  | value text | address text => some text
  | _ => none

/-- A word is said by its kind alone, so its token must be neither a name nor a value. -/
def Plain : Part → Prop
  | word kind => kind ≠ .name ∧ kind ≠ .value ∧ kind ≠ .string
  | _ => True

variable {part : Part} {token : Token}

theorem Fits.name?_eq (fits : part.Fits token) (plain : part.Plain) :
    token.name? = part.name? := by
  cases part with
  | word kind =>
      have same : token.kind = kind := fits
      simp [Token.name?, name?, same, plain.1]
  | name text => simp [show token = ⟨.name, text⟩ from fits, Token.name?, name?]
  | value text =>
      rcases fits with bare | ⟨quoted, -⟩
      · simp [Token.name?, name?, bare]
      · simp [Token.name?, name?, quoted]
  | address text => simp [show token = ⟨.value, text⟩ from fits, Token.name?, name?]

theorem Fits.value?_eq (fits : part.Fits token) (plain : part.Plain) :
    token.value? = part.value? := by
  cases part with
  | word kind =>
      have same : token.kind = kind := fits
      unfold Token.value?
      split
      case h_1 bare => exact (plain.2.1 (same.symm.trans bare)).elim
      case h_2 quoted => exact (plain.2.2 (same.symm.trans quoted)).elim
      case h_3 => rfl
  | name text => simp [show token = ⟨.name, text⟩ from fits, Token.value?, value?]
  | value text =>
      rcases fits with bare | ⟨quoted, same⟩
      · simp [Token.value?, value?, bare]
      · simp [Token.value?, value?, quoted, same]
  | address text => simp [show token = ⟨.value, text⟩ from fits, Token.value?, value?]

end Part

section Parts

variable {parts : List Part} {tokens : List Token}

/-- What the parts say is what their tokens say, part by part. -/
theorem filterMap_of_fits {ofToken : Token → Option String} {ofPart : Part → Option String}
    (fits : List.Forall₂ Part.Fits parts tokens)
    (same : ∀ part ∈ parts, ∀ token, part.Fits token → ofToken token = ofPart part) :
    tokens.filterMap ofToken = parts.filterMap ofPart := by
  induction fits with
  | nil => rfl
  | cons here _ ih =>
      obtain ⟨sameHere, sameLater⟩ := List.forall_mem_cons.mp same
      rw [List.filterMap_cons, List.filterMap_cons, sameHere _ here, ih sameLater]

/-- Commas say nothing, so the parts of a list say what the parts of its entries say. -/
theorem filterMap_listed {ofPart : Part → Option String} (comma : ofPart (.word .comma) = none)
    (entryParts : Entry → List Part) (entries : List Entry) :
    (listed (entries.map entryParts)).filterMap ofPart =
      entries.flatMap fun entry => (entryParts entry).filterMap ofPart := by
  induction entries with
  | nil => rfl
  | cons entry others ih =>
      cases others with
      | nil => simp [listed]
      | cons other others =>
          rw [List.map_cons, List.map_cons, listed, List.filterMap_append,
            List.filterMap_cons_none comma, ← List.map_cons, ih]
          · rfl
          · exact List.cons_ne_nil _ _

/-- If each entry says one thing, the list says these things. -/
theorem filterMap_listed_eq_map {ofPart : Part → Option String} {entryParts : Entry → List Part}
    {said : Entry → String} (comma : ofPart (.word .comma) = none)
    (each : ∀ entry, (entryParts entry).filterMap ofPart = [said entry]) (entries : List Entry) :
    (listed (entries.map entryParts)).filterMap ofPart = entries.map said := by
  rw [filterMap_listed comma, List.map_eq_flatMap]
  simp only [each]

theorem filterMap_listed_eq_nil {ofPart : Part → Option String} {entryParts : Entry → List Part}
    (comma : ofPart (.word .comma) = none)
    (each : ∀ entry, (entryParts entry).filterMap ofPart = []) (entries : List Entry) :
    (listed (entries.map entryParts)).filterMap ofPart = [] := by
  rw [filterMap_listed comma]
  exact List.flatMap_eq_nil_iff.mpr fun entry _ => each entry

theorem plain_entry (entry : Entry) : ∀ part ∈ entry.parts, part.Plain := by
  simp [Entry.parts, Part.Plain]

theorem plain_filter (filtered : Option Entry) : ∀ part ∈ filterParts filtered, part.Plain := by
  cases filtered with
  | none => nofun
  | some entry => simp [filterParts, Entry.parts, Part.Plain]

theorem plain_listed {items : List Entry} {itemParts : Entry → List Part}
    (each : ∀ entry, ∀ part ∈ itemParts entry, part.Plain) :
    ∀ part ∈ listed (items.map itemParts), part.Plain := by
  apply forall_mem_listed
  · simp [Part.Plain]
  · intro item member
    obtain ⟨entry, -, rfl⟩ := List.mem_map.mp member
    exact each entry

theorem plain_row (row : List Entry) : ∀ part ∈ rowParts row, part.Plain := by
  have names : ∀ part ∈ listed (row.map fun entry => [.name entry.column]), part.Plain :=
    plain_listed (by simp [Part.Plain])
  have values : ∀ part ∈ listed (row.map fun entry => [.value entry.value]), part.Plain :=
    plain_listed (by simp [Part.Plain])
  simp only [rowParts, List.forall_mem_append]
  refine ⟨⟨⟨⟨?_, names⟩, ?_⟩, values⟩, ?_⟩ <;> simp [Part.Plain]

end Parts

namespace Command

variable {command : Command} {tokens : List Token}

theorem plain_parts (command : Command) : ∀ part ∈ command.parts, part.Plain := by
  cases command with
  | select table filtered | subscribe table filtered | delete table filtered =>
      have filter := plain_filter filtered
      simp_all [parts, Part.Plain]
  | insert table row =>
      have row := plain_row row
      simp_all [parts, Part.Plain]
  | update table changes filtered =>
      have changed : ∀ part ∈ listed (changes.map Entry.parts), part.Plain :=
        plain_listed plain_entry
      simp only [parts, List.forall_mem_append]
      refine ⟨⟨?_, changed⟩, plain_filter filtered⟩
      simp [Part.Plain]
  | bridge action => cases action <;> simp [parts, BridgeAction.parts, Part.Plain]
  | help | status | stop | start | unsubscribe => simp [parts, Part.Plain]

theorem filterMap_name?_filter (filtered : Option Entry) :
    (filterParts filtered).filterMap Part.name? = filtered.toList.map Entry.column := by
  cases filtered <;> rfl

theorem filterMap_value?_filter (filtered : Option Entry) :
    (filterParts filtered).filterMap Part.value? = filtered.toList.map Entry.value := by
  cases filtered <;> rfl

theorem filterMap_name?_row (row : List Entry) :
    (rowParts row).filterMap Part.name? = row.map Entry.column := by
  have columns : (listed (row.map fun entry => [.name entry.column])).filterMap Part.name? =
      row.map Entry.column := filterMap_listed_eq_map rfl (fun _ => rfl) row
  have values : (listed (row.map fun entry => [.value entry.value])).filterMap Part.name? = [] :=
    filterMap_listed_eq_nil rfl (fun _ => rfl) row
  simp [rowParts, columns, values, Part.name?, List.filterMap_cons]

theorem filterMap_value?_row (row : List Entry) :
    (rowParts row).filterMap Part.value? = row.map Entry.value := by
  have columns : (listed (row.map fun entry => [.name entry.column])).filterMap Part.value? = [] :=
    filterMap_listed_eq_nil rfl (fun _ => rfl) row
  have values : (listed (row.map fun entry => [.value entry.value])).filterMap Part.value? =
      row.map Entry.value := filterMap_listed_eq_map rfl (fun _ => rfl) row
  simp [rowParts, columns, values, Part.value?, List.filterMap_cons]

/-- The parts of a command are about its names, in order. -/
theorem filterMap_name?_parts (command : Command) :
    command.parts.filterMap Part.name? = command.names := by
  cases command with
  | select table filtered | subscribe table filtered | delete table filtered =>
      exact congrArg (table :: ·) (filterMap_name?_filter filtered)
  | insert table row => exact congrArg (table :: ·) (filterMap_name?_row row)
  | update table changes filtered =>
      have changed : (listed (changes.map Entry.parts)).filterMap Part.name? =
          changes.map Entry.column := filterMap_listed_eq_map rfl (fun _ => rfl) changes
      simp [parts, names, table?, columns, changed, filterMap_name?_filter, Part.name?,
        List.filterMap_cons]
  | bridge action => cases action <;> rfl
  | help | status | stop | start | unsubscribe => rfl

/-- The parts of a command are about its values, in order. -/
theorem filterMap_value?_parts (command : Command) :
    command.parts.filterMap Part.value? = command.values := by
  cases command with
  | select table filtered | subscribe table filtered | delete table filtered =>
      exact filterMap_value?_filter filtered
  | insert table row => exact filterMap_value?_row row
  | update table changes filtered =>
      have changed : (listed (changes.map Entry.parts)).filterMap Part.value? =
          changes.map Entry.value := filterMap_listed_eq_map rfl (fun _ => rfl) changes
      simp [parts, values, changed, filterMap_value?_filter, Part.value?, List.filterMap_cons]
  | bridge action => cases action <;> rfl
  | help | status | stop | start | unsubscribe => rfl

theorem ofTokens_eq_ok_iff_saidBy :
    ofTokens tokens = .ok command ↔ command.SaidBy (Token.beforeEnding tokens) := by
  rw [ofTokens_eq_ok]
  constructor
  · rintro ⟨nonempty, rest, ⟨taken, rfl, fits⟩, ended⟩
    have inside := isToken_of_fits nonempty fits
    rw [Token.beforeEnding_append (fun token member => (inside token member).1) ended]
    exact ⟨nonempty, fits⟩
  · rintro ⟨nonempty, fits⟩
    obtain ⟨rest, split, ended⟩ := Token.exists_append_beforeEnding tokens
    exact ⟨nonempty, rest, ⟨_, split, fits⟩, ended⟩

theorem SaidBy.names_eq (said : command.SaidBy tokens) :
    tokens.filterMap Token.name? = command.names := by
  rw [← filterMap_name?_parts]
  exact filterMap_of_fits said.parts fun part member _ fits =>
    fits.name?_eq (plain_parts command part member)

theorem SaidBy.values_eq (said : command.SaidBy tokens) :
    tokens.filterMap Token.value? = command.values := by
  rw [← filterMap_value?_parts]
  exact filterMap_of_fits said.parts fun part member _ fits =>
    fits.value?_eq (plain_parts command part member)

theorem SaidBy.sentence (said : command.SaidBy tokens) : Sentence (tokens.map Token.kind) := by
  have admits : List.Forall₂ Part.Admits command.parts (tokens.map Token.kind) :=
    List.forall₂_map_right_iff.mpr (said.parts.imp fun _ _ => Part.Fits.admits)
  exact sentence_of_admits said.entries admits

/-- Any tokens stand for a command exactly when the kinds of those in front of the end make a
sentence. The command is the one whose parts these tokens say, and it has all their names and
values, in order. -/
theorem ofTokens_accepts (tokens : List Token) :
    ((∃ command, ofTokens tokens = .ok command) ↔
        Sentence ((Token.beforeEnding tokens).map Token.kind)) ∧
      ∀ command,
        (ofTokens tokens = .ok command ↔ command.SaidBy (Token.beforeEnding tokens)) ∧
        (ofTokens tokens = .ok command →
          (Token.beforeEnding tokens).filterMap Token.name? = command.names ∧
          (Token.beforeEnding tokens).filterMap Token.value? = command.values) := by
  refine ⟨⟨?_, ?_⟩, ?_⟩
  · rintro ⟨command, accepted⟩
    exact (ofTokens_eq_ok_iff_saidBy.mp accepted).sentence
  · intro sentence
    obtain ⟨command, nonempty, fits⟩ := exists_command sentence rfl
    exact ⟨command, ofTokens_eq_ok_iff_saidBy.mpr ⟨nonempty, fits⟩⟩
  · intro command
    refine ⟨ofTokens_eq_ok_iff_saidBy, ?_⟩
    intro accepted
    have said := ofTokens_eq_ok_iff_saidBy.mp accepted
    exact ⟨said.names_eq, said.values_eq⟩

/-- Tokens that no text is split into: the names are no names, and a fault stands behind the end. -/
example :
    ofTokens [⟨.insert, "x"⟩, ⟨.into, ""⟩, ⟨.name, "1"⟩, ⟨.leftParen, "("⟩, ⟨.name, "a b"⟩,
      ⟨.rightParen, ")"⟩, ⟨.values, "values"⟩, ⟨.leftParen, "("⟩, ⟨.string, "\x27it\x27\x27s\x27"⟩,
      ⟨.rightParen, "("⟩, ⟨.endOfInput, "more"⟩, ⟨.error, "fault"⟩] =
      .ok (.insert "1" [⟨"a b", "it\x27s"⟩]) := by
  decide

end Command

end TableFeed
