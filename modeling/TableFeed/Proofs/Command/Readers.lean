import TableFeed.Command.Grammar
import TableFeed.Proofs.Command.Parts

/-!
# Which tokens a command is read from

Each reader takes exactly the tokens that say the parts of what it answers. Some readers look at the
token behind these, without taking it. The main statement says that a command is read from a list of
tokens exactly when the list begins with tokens for its parts and the end of the command stands
behind them.
-/

namespace TableFeed

namespace Token

theorem checked_of_ne_error {token : Token} (sound : token.kind ≠ .error) :
    token.checked = .ok token := by
  rw [checked, if_neg sound]

theorem textOf_eq_ok {kind : Kind} {expected : Expected} {token : Token} {text : String}
    (inside : kind ≠ .error) :
    textOf kind expected token = .ok text ↔ token = ⟨kind, text⟩ := by
  obtain ⟨found, foundText⟩ := token
  by_cases same : found = kind
  · subst found
    simp [textOf, checked, inside, bind, Except.bind, pure, Except.pure]
  · by_cases broken : found = .error <;>
      simp [textOf, checked, broken, same, inside.symm, bind, Except.bind, throw, throwThe,
        MonadExceptOf.throw]

theorem valueText_eq_ok {token : Token} {text : String} :
    valueText token = .ok text ↔ (Part.value text).Fits token := by
  obtain ⟨kind, found⟩ := token
  by_cases broken : kind = .error
  · subst kind
    simp [valueText, checked, Part.Fits, bind, Except.bind]
  · rw [valueText, checked_of_ne_error broken]
    cases kind <;> simp [Part.Fits, bind, Except.bind, pure, Except.pure, throw, throwThe,
      MonadExceptOf.throw]

end Token

namespace Reader

variable {tokens rest : List Token} {text : String} {found : Entry} {command : Command}

theorem one_eq_ok_of_inside {α : Type} {read : Token → Except CommandError α} {answer : α}
    (inside : read .ending ≠ .ok answer) :
    one read tokens = .ok (answer, rest) ↔
      ∃ token, tokens = token :: rest ∧ read token = .ok answer := by
  rw [one_eq_ok]
  cases tokens with
  | nil => simp [front, inside]
  | cons token later => simp [front, and_comm]

theorem expect_eq_ok {kind : Token.Kind} {expected : Expected} (sound : kind ≠ .error)
    (inside : kind ≠ .endOfInput) :
    expect kind expected tokens = .ok (text, rest) ↔ tokens = ⟨kind, text⟩ :: rest := by
  have noEnding : Token.textOf kind expected .ending ≠ .ok text := by
    rw [Ne, Token.textOf_eq_ok sound]
    intro same
    exact inside (congrArg Token.kind same).symm
  rw [expect, one_eq_ok_of_inside noEnding]
  simp [Token.textOf_eq_ok sound]

theorem expectWord_eq_ok {kind : Token.Kind} {answer : Unit} (sound : kind ≠ .error)
    (inside : kind ≠ .endOfInput) :
    expectWord kind tokens = .ok (answer, rest) ↔ Taken [.word kind] tokens rest := by
  simp only [expectWord, bind_eq_ok, expect_eq_ok sound inside, pure_eq_ok, taken_cons, taken_nil]
  constructor
  · rintro ⟨text, later, rfl, -, same⟩
    exact ⟨⟨kind, text⟩, later, rfl, rfl, same⟩
  · rintro ⟨⟨_, text⟩, later, rfl, rfl, same⟩
    exact ⟨text, later, rfl, trivial, same⟩

theorem name_eq_ok {expected : Expected} :
    expect .name expected tokens = .ok (text, rest) ↔ Taken [.name text] tokens rest := by
  rw [expect_eq_ok (by decide) (by decide)]
  simp [taken_cons, Part.Fits]

theorem value_eq_ok :
    one Token.valueText tokens = .ok (text, rest) ↔ Taken [.value text] tokens rest := by
  have noEnding : Token.valueText .ending ≠ .ok text := by
    rw [Ne, Token.valueText_eq_ok]
    rintro (same | ⟨same, -⟩) <;> nomatch same
  rw [one_eq_ok_of_inside noEnding]
  simp [taken_cons, Token.valueText_eq_ok, and_comm]

theorem entry_eq_ok : entry tokens = .ok (found, rest) ↔ Taken found.parts tokens rest := by
  obtain ⟨column, value⟩ := found
  simp only [entry, Entry.parts, taken_cons_cons, bind_eq_ok, name_eq_ok, value_eq_ok, pure_eq_ok,
    expectWord_eq_ok, ne_eq, reduceCtorEq, not_false_eq_true, Entry.mk.injEq]
  constructor
  · rintro ⟨_, afterColumn, columnTaken, _, afterEqual, equalTaken, _, _, valueTaken, ⟨rfl, rfl⟩,
      rfl⟩
    exact ⟨afterColumn, columnTaken, afterEqual, equalTaken, valueTaken⟩
  · rintro ⟨afterColumn, columnTaken, afterEqual, equalTaken, valueTaken⟩
    exact ⟨column, afterColumn, columnTaken, (), afterEqual, equalTaken, value, rest, valueTaken,
      ⟨rfl, rfl⟩, rfl⟩

theorem whereEntry_eq_ok {filtered : Option Entry} :
    (do
      expectWord .whereWord
      return some (← entry) : Reader (Option Entry)) tokens = .ok (filtered, rest) ↔
      ∃ found, filtered = some found ∧ Taken (filterParts (some found)) tokens rest := by
  have parts : ∀ found : Entry, Taken (filterParts (some found)) tokens rest ↔
      ∃ middle, Taken [.word .whereWord] tokens middle ∧ Taken found.parts middle rest := by
    intro found
    rw [filterParts, Entry.parts, taken_cons_cons]
  simp only [parts, bind_eq_ok, pure_eq_ok, entry_eq_ok, expectWord_eq_ok, ne_eq, reduceCtorEq,
    not_false_eq_true]
  constructor
  · rintro ⟨_, middle, wordTaken, found, _, entryTaken, rfl, rfl⟩
    exact ⟨found, rfl, middle, wordTaken, entryTaken⟩
  · rintro ⟨found, rfl, middle, wordTaken, entryTaken⟩
    exact ⟨(), middle, wordTaken, found, rest, entryTaken, rfl, rfl⟩

theorem filter_eq_ok {filtered : Option Entry} :
    filter tokens = .ok (filtered, rest) ↔
      Taken (filterParts filtered) tokens rest ∧
        (filtered = none → (front rest).kind ≠ .whereWord) := by
  have decided : filter tokens =
      (if (front tokens).kind = .whereWord then do
        expectWord .whereWord
        return some (← entry)
      else return none : Reader (Option Entry)) tokens := rfl
  rw [decided]
  split
  · rename_i word
    rw [whereEntry_eq_ok]
    constructor
    · rintro ⟨found, rfl, taken⟩
      refine ⟨taken, ?_⟩
      intro same
      cases same
    · rintro ⟨taken, ended⟩
      cases filtered with
      | none =>
          obtain rfl := taken_nil.mp taken
          exact (ended rfl word).elim
      | some found => exact ⟨found, rfl, taken⟩
  · rename_i other
    rw [pure_eq_ok]
    constructor
    · rintro ⟨rfl, rfl⟩
      exact ⟨taken_nil.mpr rfl, fun _ => other⟩
    · rintro ⟨taken, -⟩
      cases filtered with
      | none => exact ⟨rfl, taken_nil.mp taken⟩
      | some found =>
          obtain ⟨token, later, rfl, word, -⟩ := taken_cons.mp taken
          exact (other word).elim

section Items

variable {α : Type} {read : Token → Except CommandError α} {answers : List α}

theorem items_cons_cons_eq_ok {token separator : Token} {later : List Token} :
    items read (token :: separator :: later) = .ok (answers, rest) ↔
      ∃ answer, read token = .ok answer ∧
        ((separator.kind = .rightParen ∧ answers = [answer] ∧ later = rest) ∨
          (separator.kind = .comma ∧
            ∃ others, items read later = .ok (others, rest) ∧ answers = answer :: others)) := by
  rw [items]
  cases answered : read token with
  | error reason => simp [bind, Except.bind]
  | ok answer =>
      by_cases broken : separator.kind = .error
      · simp [Token.checked, broken, bind, Except.bind]
      · rw [Token.checked_of_ne_error broken]
        cases kind : separator.kind with
        | comma =>
            cases behind : items read later with
            | error reason => simp [kind, bind, Except.bind]
            | ok found =>
                obtain ⟨others, last⟩ := found
                simp [kind, bind, Except.bind, pure, Except.pure, and_comm, eq_comm]
        | rightParen => simp [kind, bind, Except.bind, pure, Except.pure, eq_comm]
        | _ => simp [kind, bind, Except.bind, throw, throwThe, MonadExceptOf.throw]

theorem two_of_items (taken : items read tokens = .ok (answers, rest)) :
    ∃ token separator later, tokens = token :: separator :: later := by
  unfold items at taken
  split at taken
  · cases answered : read .ending <;>
      simp [answered, bind, Except.bind, throw, throwThe, MonadExceptOf.throw] at taken
  · rename_i token
    cases answered : read token <;>
      simp [answered, bind, Except.bind, throw, throwThe, MonadExceptOf.throw] at taken
  · exact ⟨_, _, _, rfl⟩

/-- Items are taken up to the parenthesis behind the last of them. -/
theorem items_eq_ok {part : α → Part}
    (reads : ∀ token answer, read token = .ok answer ↔ (part answer).Fits token) :
    items read tokens = .ok (answers, rest) ↔
      answers ≠ [] ∧
        Taken (closed (answers.map fun answer => [part answer])) tokens rest := by
  induction answers generalizing tokens with
  | nil =>
      constructor
      · intro taken
        obtain ⟨token, separator, later, rfl⟩ := two_of_items taken
        obtain ⟨answer, -, ⟨-, nothing, -⟩ | ⟨-, others, -, nothing⟩⟩ :=
          items_cons_cons_eq_ok.mp taken
        · nomatch nothing
        · nomatch nothing
      · rintro ⟨nonempty, -⟩
        exact (nonempty rfl).elim
  | cons answer others ih =>
      rw [List.map_cons, closed, taken_listed_cons]
      simp only [taken_cons, taken_nil, ne_eq, List.map_eq_nil_iff]
      constructor
      · intro taken
        obtain ⟨token, separator, later, rfl⟩ := two_of_items taken
        obtain ⟨_, answered, ⟨closed, same, rfl⟩ | ⟨comma, _, othersTaken, same⟩⟩ :=
          items_cons_cons_eq_ok.mp taken
        · obtain ⟨rfl, rfl⟩ := List.cons.inj same
          have fits := (reads token answer).mp answered
          exact ⟨List.cons_ne_nil _ _, separator :: later, ⟨token, _, rfl, fits, rfl⟩,
            Or.inl ⟨rfl, separator, later, rfl, closed, rfl⟩⟩
        · obtain ⟨rfl, rfl⟩ := List.cons.inj same
          have fits := (reads token answer).mp answered
          obtain ⟨nonempty, behind⟩ := ih.mp othersTaken
          exact ⟨List.cons_ne_nil _ _, separator :: later, ⟨token, _, rfl, fits, rfl⟩,
            Or.inr ⟨nonempty, separator, later, rfl, comma, behind⟩⟩
      · rintro ⟨-, _, ⟨token, _, rfl, fits, rfl⟩,
          ⟨rfl, separator, _, rfl, closed, rfl⟩ | ⟨nonempty, separator, _, rfl, comma, behind⟩⟩
        · exact items_cons_cons_eq_ok.mpr
            ⟨answer, (reads token answer).mpr fits, Or.inl ⟨closed, rfl, rfl⟩⟩
        · exact items_cons_cons_eq_ok.mpr ⟨answer, (reads token answer).mpr fits,
            Or.inr ⟨comma, others, ih.mpr ⟨nonempty, behind⟩, rfl⟩⟩

end Items

theorem entries_eq_ok_step {entriesFound : List Entry} :
    entries tokens = .ok (entriesFound, rest) ↔
      ∃ first middle, entry tokens = .ok (first, middle) ∧
        (((front middle).kind ≠ .comma ∧ entriesFound = [first] ∧ middle = rest) ∨
          ∃ comma later, middle = comma :: later ∧ comma.kind = .comma ∧
            ∃ others, entries later = .ok (others, rest) ∧ entriesFound = first :: others) := by
  rw [entries]
  split
  · rename_i reason failed
    simp [failed]
  · rename_i first text later taken
    cases behind : entries later with
    | error reason => simp [taken, front, behind, bind, Except.bind]
    | ok pair =>
        obtain ⟨others, last⟩ := pair
        simp [taken, front, behind, bind, Except.bind, pure, Except.pure, and_comm, eq_comm]
  · rename_i first middle noComma taken
    have other : (front middle).kind ≠ .comma := by
      intro comma
      cases middle with
      | nil => nomatch comma
      | cons token later => exact noComma token.text later (by rw [← comma]; rfl)
    have noFurther : ∀ comma later, middle = comma :: later → comma.kind ≠ .comma := by
      rintro comma later rfl
      exact other
    simp only [taken, Except.ok.injEq, Prod.mk.injEq]
    constructor
    · rintro ⟨rfl, rfl⟩
      exact ⟨first, middle, ⟨rfl, rfl⟩, Or.inl ⟨other, rfl, rfl⟩⟩
    · rintro ⟨_, _, ⟨rfl, rfl⟩, ⟨-, rfl, rfl⟩ | ⟨comma, later, split, isComma, -⟩⟩
      · exact ⟨rfl, rfl⟩
      · exact (noFurther comma later split isComma).elim

/-- Entries are taken as long as commas stand behind them. -/
theorem entries_eq_ok {found : List Entry} :
    entries tokens = .ok (found, rest) ↔
      found ≠ [] ∧ Taken (listed (found.map Entry.parts)) tokens rest ∧
        (front rest).kind ≠ .comma := by
  induction found generalizing tokens with
  | nil =>
      rw [entries_eq_ok_step]
      constructor
      · rintro ⟨first, middle, -, ⟨-, nothing, -⟩ | ⟨comma, later, -, -, others, -, nothing⟩⟩
        · nomatch nothing
        · nomatch nothing
      · rintro ⟨nonempty, -⟩
        exact (nonempty rfl).elim
  | cons entry others ih =>
      rw [entries_eq_ok_step, List.map_cons, ← List.append_nil (listed _), taken_listed_cons]
      simp only [entry_eq_ok, taken_nil, List.append_nil, ne_eq, List.map_eq_nil_iff]
      constructor
      · rintro ⟨_, middle, taken,
          ⟨ended, same, rfl⟩ | ⟨comma, later, rfl, isComma, _, behind, same⟩⟩
        · obtain ⟨rfl, rfl⟩ := List.cons.inj same
          exact ⟨List.cons_ne_nil _ _, ⟨middle, taken, Or.inl ⟨rfl, rfl⟩⟩, ended⟩
        · obtain ⟨rfl, rfl⟩ := List.cons.inj same
          obtain ⟨nonempty, othersTaken, ended⟩ := ih.mp behind
          exact ⟨List.cons_ne_nil _ _,
            ⟨comma :: later, taken, Or.inr ⟨nonempty, comma, later, rfl, isComma, othersTaken⟩⟩,
            ended⟩
      · rintro ⟨-, ⟨middle, taken,
          ⟨rfl, rfl⟩ | ⟨nonempty, comma, later, rfl, isComma, othersTaken⟩⟩, ended⟩
        · exact ⟨entry, middle, taken, Or.inl ⟨ended, rfl, rfl⟩⟩
        · exact ⟨entry, comma :: later, taken,
            Or.inr ⟨comma, later, rfl, isComma, others, ih.mpr ⟨nonempty, othersTaken, ended⟩, rfl⟩⟩

/-- Tokens say the parts, and behind them stands the end of the command, which is taken too. -/
def Finishes (parts : List Part) (tokens last : List Token) : Prop :=
  ∃ rest, Taken parts tokens rest ∧ (front rest).kind = .endOfInput ∧ rest.tail = last

variable {last : List Token} {answer : Command}

theorem finishes_append {parts others : List Part} :
    Finishes (parts ++ others) tokens last ↔
      ∃ middle, Taken parts tokens middle ∧ Finishes others middle last := by
  simp only [Finishes, taken_append]
  constructor
  · rintro ⟨rest, ⟨middle, taken, othersTaken⟩, ended⟩
    exact ⟨middle, taken, rest, othersTaken, ended⟩
  · rintro ⟨middle, taken, rest, othersTaken, ended⟩
    exact ⟨rest, ⟨middle, taken, othersTaken⟩, ended⟩

theorem finishes_cons {part : Part} {parts : List Part} :
    Finishes (part :: parts) tokens last ↔
      ∃ middle, Taken [part] tokens middle ∧ Finishes parts middle last := by
  rw [← List.singleton_append, finishes_append]

theorem finishes_nil :
    Finishes [] tokens last ↔ (front tokens).kind = .endOfInput ∧ tokens.tail = last := by
  simp [Finishes]

theorem finish_eq_ok :
    finish command tokens = .ok (answer, last) ↔ answer = command ∧ Finishes [] tokens last := by
  have ending : ∀ text, Token.textOf .endOfInput .ending (front tokens) = .ok text ↔
      front tokens = ⟨.endOfInput, text⟩ := fun text => Token.textOf_eq_ok (by decide)
  simp only [finish, expect, bind_eq_ok, one_eq_ok, ending, pure_eq_ok, finishes_nil]
  constructor
  · rintro ⟨text, _, ⟨found, rfl⟩, rfl, rfl⟩
    exact ⟨rfl, congrArg Token.kind found, rfl⟩
  · rintro ⟨rfl, found, rfl⟩
    exact ⟨(front tokens).text, tokens.tail, ⟨by rw [← found], rfl⟩, rfl, rfl⟩

theorem tableFilter_eq_ok {table : String} {filtered : Option Entry} :
    tableFilter tokens = .ok ((table, filtered), rest) ↔
      Taken ([.word .fromWord, .name table] ++ filterParts filtered) tokens rest ∧
        (filtered = none → (front rest).kind ≠ .whereWord) := by
  simp only [tableFilter, Reader.table, taken_append, taken_cons_cons, bind_eq_ok, expectWord_eq_ok,
    name_eq_ok, filter_eq_ok, pure_eq_ok, ne_eq, reduceCtorEq, not_false_eq_true, Prod.mk.injEq]
  constructor
  · rintro ⟨_, afterWord, wordTaken, _, afterTable, tableTaken, _, _, ⟨filterTaken, ended⟩,
      ⟨rfl, rfl⟩, rfl⟩
    exact ⟨⟨afterTable, ⟨afterWord, wordTaken, tableTaken⟩, filterTaken⟩, ended⟩
  · rintro ⟨⟨afterTable, ⟨afterWord, wordTaken, tableTaken⟩, filterTaken⟩, ended⟩
    exact ⟨(), afterWord, wordTaken, table, afterTable, tableTaken, filtered, rest,
      ⟨filterTaken, ended⟩, ⟨rfl, rfl⟩, rfl⟩

theorem tableFilter_finish_eq_ok {make : String → Option Entry → Command} :
    (do
      let (table, filtered) ← tableFilter
      finish (make table filtered) : Reader Command) tokens = .ok (answer, last) ↔
      ∃ table filtered, answer = make table filtered ∧
        Finishes ([.word .fromWord, .name table] ++ filterParts filtered) tokens last := by
  simp only [bind_eq_ok, finish_eq_ok, Prod.exists, tableFilter_eq_ok]
  constructor
  · rintro ⟨table, filtered, middle, ⟨taken, -⟩, rfl, ended⟩
    refine ⟨table, filtered, rfl, ?_⟩
    rw [← List.append_nil (_ ++ _), finishes_append]
    exact ⟨middle, taken, ended⟩
  · rintro ⟨table, filtered, rfl, rest, taken, ended, rfl⟩
    refine ⟨table, filtered, rest, ⟨taken, fun _ => ?_⟩, rfl, finishes_nil.mpr ⟨ended, rfl⟩⟩
    simp [ended]

section Rows

variable {columns values : List String}

theorem exists_row (sameLength : columns.length = values.length) :
    ∃ row : List Entry, columns = row.map Entry.column ∧ values = row.map Entry.value := by
  induction columns generalizing values with
  | nil => exact ⟨[], rfl, List.length_eq_zero_iff.mp sameLength.symm⟩
  | cons column columns ih =>
      cases values with
      | nil => nomatch sameLength
      | cons value values =>
          obtain ⟨row, rfl, rfl⟩ := ih (Nat.succ.inj sameLength)
          exact ⟨⟨column, value⟩ :: row, rfl, rfl⟩

theorem zipWith_row (row : List Entry) :
    List.zipWith Entry.mk (row.map Entry.column) (row.map Entry.value) = row := by
  induction row with
  | nil => rfl
  | cons entry row ih => rw [List.map_cons, List.map_cons, List.zipWith_cons_cons, ih]

theorem columns_eq_ok :
    items (Token.textOf .name .column) tokens = .ok (columns, rest) ↔
      columns ≠ [] ∧ Taken (closed (columns.map fun column => [.name column])) tokens rest :=
  items_eq_ok fun _ _ => Token.textOf_eq_ok (by decide)

theorem values_eq_ok :
    items Token.valueText tokens = .ok (values, rest) ↔
      values ≠ [] ∧ Taken (closed (values.map fun value => [.value value])) tokens rest :=
  items_eq_ok fun _ _ => Token.valueText_eq_ok

end Rows

theorem insertion_eq_ok :
    insertion tokens = .ok (answer, last) ↔
      ∃ table row, answer = .insert table row ∧ row ≠ [] ∧
        Finishes ([.word .into, .name table] ++ rowParts row) tokens last := by
  simp only [insertion, Reader.table, rowParts_eq, List.cons_append, List.nil_append, finishes_cons,
    finishes_append, bind_eq_ok, expectWord_eq_ok, name_eq_ok, columns_eq_ok, values_eq_ok, ne_eq,
    reduceCtorEq, not_false_eq_true]
  constructor
  · rintro ⟨_, _, intoTaken, table, _, tableTaken, _, _, columnsOpen, columns, _,
      ⟨someColumns, columnsTaken⟩, _, _, valuesWord, _, _, valuesOpen, values, middle,
      ⟨-, valuesTaken⟩, taken⟩
    by_cases sameLength : columns.length = values.length
    · rw [if_neg (not_not.mpr sameLength), finish_eq_ok] at taken
      obtain ⟨rfl, ended⟩ := taken
      obtain ⟨row, rfl, rfl⟩ := exists_row sameLength
      rw [List.map_map] at columnsTaken valuesTaken
      rw [List.map_eq_nil_iff] at someColumns
      exact ⟨table, row, by rw [zipWith_row], someColumns, _, intoTaken, _, tableTaken, _,
        columnsOpen, _, columnsTaken, _, valuesWord, _, valuesOpen, middle, valuesTaken,
        finishes_nil.mp ended⟩
    · rw [if_pos sameLength] at taken
      nomatch taken
  · rintro ⟨table, row, rfl, nonempty, _, intoTaken, _, tableTaken, _, columnsOpen, _,
      columnsTaken, _, valuesWord, _, valuesOpen, _, valuesTaken, ended⟩
    have someColumns : row.map Entry.column ≠ [] := by simpa using nonempty
    have someValues : row.map Entry.value ≠ [] := by simpa using nonempty
    refine ⟨(), _, intoTaken, table, _, tableTaken, (), _, columnsOpen, row.map Entry.column, _,
      ⟨someColumns, by rwa [List.map_map]⟩, (), _, valuesWord, (), _, valuesOpen,
      row.map Entry.value, _, ⟨someValues, by rwa [List.map_map]⟩, ?_⟩
    rw [if_neg (by simp), finish_eq_ok, zipWith_row]
    exact ⟨rfl, finishes_nil.mpr ended⟩

theorem change_eq_ok :
    change tokens = .ok (answer, last) ↔
      ∃ table changes filtered, answer = .update table changes filtered ∧ changes ≠ [] ∧
        Finishes ([.name table, .word .set] ++ listed (changes.map Entry.parts) ++
          filterParts filtered) tokens last := by
  simp only [change, Reader.table, List.cons_append, List.nil_append,
    finishes_cons, finishes_append, bind_eq_ok, expectWord_eq_ok, name_eq_ok, entries_eq_ok,
    filter_eq_ok, finish_eq_ok, finishes_nil, ne_eq, reduceCtorEq, not_false_eq_true]
  constructor
  · rintro ⟨table, _, tableTaken, _, _, setTaken, changes, _, ⟨nonempty, changesTaken, -⟩,
      filtered, _, ⟨filterTaken, -⟩, rfl, ended⟩
    exact ⟨table, changes, filtered, rfl, nonempty, _, tableTaken, _, setTaken, _, changesTaken,
      _, filterTaken, ended⟩
  · rintro ⟨table, changes, filtered, rfl, nonempty, _, tableTaken, _, setTaken, afterChanges,
      changesTaken, afterFilter, filterTaken, ending, rfl⟩
    have noWord : (front afterFilter).kind ≠ .whereWord := by simp [ending]
    have noComma : (front afterChanges).kind ≠ .comma := by
      cases filtered with
      | none =>
          obtain rfl := taken_nil.mp filterTaken
          simp [ending]
      | some entry =>
          obtain ⟨token, later, rfl, word, -⟩ := taken_cons.mp filterTaken
          have isWord : (front (token :: later)).kind = .whereWord := word
          simp [isWord]
    exact ⟨table, _, tableTaken, (), _, setTaken, changes, afterChanges,
      ⟨nonempty, changesTaken, noComma⟩, filtered, afterFilter, ⟨filterTaken, fun _ => noWord⟩,
      rfl, ending, rfl⟩

theorem finishes_word {kind : Token.Kind} {parts : List Part} :
    Finishes (.word kind :: parts) tokens last ↔
      ∃ text later, tokens = ⟨kind, text⟩ :: later ∧ Finishes parts later last := by
  simp only [Finishes, taken_cons]
  constructor
  · rintro ⟨rest, ⟨⟨_, text⟩, later, rfl, rfl, taken⟩, ended⟩
    exact ⟨text, later, rfl, rest, taken, ended⟩
  · rintro ⟨text, later, rfl, rest, taken, ended⟩
    exact ⟨rest, ⟨⟨kind, text⟩, later, rfl, rfl, taken⟩, ended⟩

theorem address_eq_ok {address : String} :
    expect .value .address tokens = .ok (address, rest) ↔ Taken [.address address] tokens rest := by
  rw [expect_eq_ok (by decide) (by decide)]
  simp [taken_cons, Part.Fits]

theorem connect_eq_ok :
    (do finish (.bridge (.connect (← expect .value .address))) : Reader Command) tokens =
        .ok (answer, last) ↔
      ∃ address, answer = .bridge (.connect address) ∧
        Finishes [.address address] tokens last := by
  simp only [finishes_cons, bind_eq_ok, address_eq_ok, finish_eq_ok]
  constructor
  · rintro ⟨address, _, taken, same, ended⟩
    exact ⟨address, same, _, taken, ended⟩
  · rintro ⟨address, same, _, taken, ended⟩
    exact ⟨address, _, taken, same, ended⟩

theorem bridge_eq_ok :
    bridge tokens = .ok (answer, last) ↔
      ∃ action, answer = .bridge action ∧ Finishes action.parts tokens last := by
  constructor
  · intro taken
    cases tokens with
    | nil => nomatch taken
    | cons token later =>
        obtain ⟨kind, text⟩ := token
        cases kind with
        | connect =>
            obtain ⟨address, same, ended⟩ := connect_eq_ok.mp taken
            exact ⟨.connect address, same, finishes_word.mpr ⟨text, later, rfl, ended⟩⟩
        | disconnect =>
            obtain ⟨same, ended⟩ := finish_eq_ok.mp taken
            exact ⟨.disconnect, same, finishes_word.mpr ⟨text, later, rfl, ended⟩⟩
        | subscribe =>
            obtain ⟨same, ended⟩ := finish_eq_ok.mp taken
            exact ⟨.subscribe, same, finishes_word.mpr ⟨text, later, rfl, ended⟩⟩
        | unsubscribe =>
            obtain ⟨same, ended⟩ := finish_eq_ok.mp taken
            exact ⟨.unsubscribe, same, finishes_word.mpr ⟨text, later, rfl, ended⟩⟩
        | _ => nomatch taken
  · rintro ⟨action, rfl, finishes⟩
    cases action with
    | connect address =>
        obtain ⟨text, later, rfl, ended⟩ := finishes_word.mp finishes
        exact connect_eq_ok.mpr ⟨address, rfl, ended⟩
    | _ =>
        obtain ⟨text, later, rfl, ended⟩ := finishes_word.mp finishes
        exact finish_eq_ok.mpr ⟨rfl, ended⟩

theorem starred_eq_ok {make : String → Option Entry → Command} :
    (do
      expectWord .star
      let (table, filtered) ← tableFilter
      finish (make table filtered) : Reader Command) tokens = .ok (answer, last) ↔
      ∃ table filtered, answer = make table filtered ∧
        Finishes (.word .star :: ([.word .fromWord, .name table] ++ filterParts filtered))
          tokens last := by
  rw [bind_eq_ok]
  constructor
  · rintro ⟨_, middle, starTaken, taken⟩
    rw [expectWord_eq_ok (by decide) (by decide)] at starTaken
    obtain ⟨table, filtered, same, ended⟩ := tableFilter_finish_eq_ok.mp taken
    exact ⟨table, filtered, same, finishes_cons.mpr ⟨middle, starTaken, ended⟩⟩
  · rintro ⟨table, filtered, same, finishes⟩
    obtain ⟨middle, starTaken, ended⟩ := finishes_cons.mp finishes
    rw [← expectWord_eq_ok (by decide) (by decide)] at starTaken
    exact ⟨(), middle, starTaken, tableFilter_finish_eq_ok.mpr ⟨table, filtered, same, ended⟩⟩

theorem unsubscribe_eq_ok :
    (do
      expectWord .fromWord
      finish (.unsubscribe (← table)) : Reader Command) tokens = .ok (answer, last) ↔
      ∃ table, answer = .unsubscribe table ∧
        Finishes [.word .fromWord, .name table] tokens last := by
  simp only [Reader.table, finishes_cons, bind_eq_ok, expectWord_eq_ok, name_eq_ok, finish_eq_ok,
    ne_eq, reduceCtorEq, not_false_eq_true]
  constructor
  · rintro ⟨_, _, wordTaken, table, _, tableTaken, same, ended⟩
    exact ⟨table, same, _, wordTaken, _, tableTaken, ended⟩
  · rintro ⟨table, same, _, wordTaken, _, tableTaken, ended⟩
    exact ⟨(), _, wordTaken, table, _, tableTaken, same, ended⟩

/-- A command is read from tokens for its parts, with the end of the command behind them. -/
theorem command_eq_ok :
    Reader.command tokens = .ok (answer, last) ↔
      answer.HasEntries ∧ Finishes answer.parts tokens last := by
  constructor
  · intro taken
    cases tokens with
    | nil => nomatch taken
    | cons token later =>
        obtain ⟨kind, text⟩ := token
        cases kind with
        | help | status | stop | start =>
            obtain ⟨rfl, ended⟩ := finish_eq_ok.mp taken
            exact ⟨trivial, finishes_word.mpr ⟨text, later, rfl, ended⟩⟩
        | select | subscribe =>
            obtain ⟨table, filtered, rfl, ended⟩ := starred_eq_ok.mp taken
            exact ⟨trivial, finishes_word.mpr ⟨text, later, rfl, ended⟩⟩
        | unsubscribe =>
            obtain ⟨table, rfl, ended⟩ := unsubscribe_eq_ok.mp taken
            exact ⟨trivial, finishes_word.mpr ⟨text, later, rfl, ended⟩⟩
        | insert =>
            obtain ⟨table, row, rfl, nonempty, ended⟩ := insertion_eq_ok.mp taken
            exact ⟨nonempty, finishes_word.mpr ⟨text, later, rfl, ended⟩⟩
        | update =>
            obtain ⟨table, changes, filtered, rfl, nonempty, ended⟩ := change_eq_ok.mp taken
            exact ⟨nonempty, finishes_word.mpr ⟨text, later, rfl, ended⟩⟩
        | delete =>
            obtain ⟨table, filtered, rfl, ended⟩ := tableFilter_finish_eq_ok.mp taken
            exact ⟨trivial, finishes_word.mpr ⟨text, later, rfl, ended⟩⟩
        | mysql =>
            obtain ⟨action, rfl, ended⟩ := bridge_eq_ok.mp taken
            exact ⟨trivial, finishes_word.mpr ⟨text, later, rfl, ended⟩⟩
        | _ => nomatch taken
  · rintro ⟨nonempty, finishes⟩
    cases answer with
    | help | status | stop | start =>
        obtain ⟨text, later, rfl, ended⟩ := finishes_word.mp finishes
        exact finish_eq_ok.mpr ⟨rfl, ended⟩
    | select table filtered | subscribe table filtered =>
        obtain ⟨text, later, rfl, ended⟩ := finishes_word.mp finishes
        exact starred_eq_ok.mpr ⟨table, filtered, rfl, ended⟩
    | unsubscribe table =>
        obtain ⟨text, later, rfl, ended⟩ := finishes_word.mp finishes
        exact unsubscribe_eq_ok.mpr ⟨table, rfl, ended⟩
    | insert table row =>
        obtain ⟨text, later, rfl, ended⟩ := finishes_word.mp finishes
        exact insertion_eq_ok.mpr ⟨table, row, rfl, nonempty, ended⟩
    | update table changes filtered =>
        obtain ⟨text, later, rfl, ended⟩ := finishes_word.mp finishes
        exact change_eq_ok.mpr ⟨table, changes, filtered, rfl, nonempty, ended⟩
    | delete table filtered =>
        obtain ⟨text, later, rfl, ended⟩ := finishes_word.mp finishes
        exact tableFilter_finish_eq_ok.mpr ⟨table, filtered, rfl, ended⟩
    | bridge action =>
        obtain ⟨text, later, rfl, ended⟩ := finishes_word.mp finishes
        exact bridge_eq_ok.mpr ⟨action, rfl, ended⟩

end Reader

/-- A list of tokens stands for a command exactly when it begins with tokens for its parts and the
end of the command stands behind them. -/
theorem Command.ofTokens_eq_ok {tokens : List Token} {command : Command} :
    ofTokens tokens = .ok command ↔ command.HasEntries ∧
      ∃ rest, Taken command.parts tokens rest ∧ (Reader.front rest).kind = .endOfInput := by
  have answered : ofTokens tokens = .ok command ↔
      ∃ last, Reader.command tokens = .ok (command, last) := by
    unfold ofTokens StateT.run'
    cases Reader.command tokens <;> simp [Functor.map, Except.map, Prod.ext_iff]
  simp only [answered, Reader.command_eq_ok, Reader.Finishes]
  constructor
  · rintro ⟨last, nonempty, rest, taken, ended, -⟩
    exact ⟨nonempty, rest, taken, ended⟩
  · rintro ⟨nonempty, rest, taken, ended⟩
    exact ⟨rest.tail, nonempty, rest, taken, ended, rfl⟩

end TableFeed
