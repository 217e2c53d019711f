import TableFeed.Proofs.Command.RoundTrip
import TableFeed.Proofs.Command.Stops
import TableFeed.Proofs.Scan.Cutting

/-!
# Unfinished sentences

A scan follows sentences, which may break off anywhere: because the text ends there, or because of
a fault. It follows some more sentences than those that are commands. The main statement says that
the kinds of tokens that are handed out in front of the end of some text are those with which such
a sentence can begin, and that a fault never stands behind anything else.
-/

namespace TableFeed

/-- The sentences that a scan follows. Other than in a command, an unsubscription may have a filter,
the two lists of an insertion may differ in length, and an address may be quoted. -/
inductive Outline : List Token.Kind → Prop
  | help : Outline [.help]
  | status : Outline [.status]
  | stop : Outline [.stop]
  | start : Outline [.start]
  | select {filter : List Token.Kind} (isFilter : Sentence.Filter filter) :
      Outline ([.select, .star, .fromWord, .name] ++ filter)
  | subscribe {filter : List Token.Kind} (isFilter : Sentence.Filter filter) :
      Outline ([.subscribe, .star, .fromWord, .name] ++ filter)
  | unsubscribe {filter : List Token.Kind} (isFilter : Sentence.Filter filter) :
      Outline ([.unsubscribe, .fromWord, .name] ++ filter)
  | delete {filter : List Token.Kind} (isFilter : Sentence.Filter filter) :
      Outline ([.delete, .fromWord, .name] ++ filter)
  | update {changes filter : List Token.Kind} (areChanges : Sentence.Changes changes)
      (isFilter : Sentence.Filter filter) :
      Outline ([.update, .name, .set] ++ (changes ++ filter))
  | insert {columns values : Nat} {columnKinds valueKinds : List Token.Kind}
      (columnsClosed : Sentence.Closed (· = .name) columns columnKinds)
      (valuesClosed : Sentence.Closed Token.Kind.IsValue values valueKinds) :
      Outline ([.insert, .into, .name, .leftParen] ++
        (columnKinds ++ ([.values, .leftParen] ++ valueKinds)))
  | bridgeConnect {kind : Token.Kind} (isValue : kind.IsValue) : Outline [.mysql, .connect, kind]
  | bridgeDisconnect : Outline [.mysql, .disconnect]
  | bridgeSubscribe : Outline [.mysql, .subscribe]
  | bridgeUnsubscribe : Outline [.mysql, .unsubscribe]

/-- A sentence can begin with the given kinds of tokens. -/
def Unfinished (kinds : List Token.Kind) : Prop :=
  ∃ sentence, Outline sentence ∧ kinds <+: sentence

/-- Whether a sentence may end at a place. -/
def Place.mayEnd : Place → Bool
  | filterWord | afterChange | finish => true
  | _ => false

/-- Some tokens lead from a place to one where a sentence may end. -/
def Place.Completes (place : Place) : Prop :=
  ∃ kinds last, place.Leads kinds last ∧ last.mayEnd = true

section Completes

variable {place next : Place} {kind : Token.Kind}

theorem Place.Completes.of_mayEnd (ends : place.mayEnd = true) : place.Completes :=
  ⟨[], place, rfl, ends⟩

theorem Place.Completes.cons (completes : next.Completes) (takes : place.goal.Takes kind next) :
    place.Completes := by
  obtain ⟨kinds, last, leads, ends⟩ := completes
  exact ⟨kind :: kinds, last, ⟨next, takes, leads⟩, ends⟩

/-- Wherever a sentence breaks off, it could have been completed. -/
theorem Place.completes (place : Place) : place.Completes := by
  have filterWord : Place.filterWord.Completes := .of_mayEnd rfl
  have afterChange : Place.afterChange.Completes := .of_mayEnd rfl
  have finish : Place.finish.Completes := .of_mayEnd rfl
  have filterValue : Place.filterValue.Completes := finish.cons ⟨Or.inl rfl, rfl⟩
  have filterEqual : Place.filterEqual.Completes := filterValue.cons ⟨rfl, rfl⟩
  have filterColumn : Place.filterColumn.Completes := filterEqual.cons ⟨rfl, rfl⟩
  have sourceTable : Place.sourceTable.Completes := filterWord.cons ⟨rfl, rfl⟩
  have sourceWord : Place.sourceWord.Completes := sourceTable.cons ⟨rfl, rfl⟩
  have allColumns : Place.allColumns.Completes := sourceWord.cons ⟨rfl, rfl⟩
  have changeValue : Place.changeValue.Completes := afterChange.cons ⟨Or.inl rfl, rfl⟩
  have changeEqual : Place.changeEqual.Completes := changeValue.cons ⟨rfl, rfl⟩
  have changeColumn : Place.changeColumn.Completes := changeEqual.cons ⟨rfl, rfl⟩
  have setWord : Place.setWord.Completes := changeColumn.cons ⟨rfl, rfl⟩
  have updateTable : Place.updateTable.Completes := setWord.cons ⟨rfl, rfl⟩
  have afterRowValue : Place.afterRowValue.Completes := finish.cons (Or.inr ⟨rfl, rfl⟩)
  have rowValue : Place.rowValue.Completes := afterRowValue.cons ⟨Or.inl rfl, rfl⟩
  have valuesOpen : Place.valuesOpen.Completes := rowValue.cons ⟨rfl, rfl⟩
  have valuesWord : Place.valuesWord.Completes := valuesOpen.cons ⟨rfl, rfl⟩
  have afterColumn : Place.afterColumn.Completes := valuesWord.cons (Or.inr ⟨rfl, rfl⟩)
  have column : Place.column.Completes := afterColumn.cons ⟨rfl, rfl⟩
  have columnsOpen : Place.columnsOpen.Completes := column.cons ⟨rfl, rfl⟩
  have insertTable : Place.insertTable.Completes := columnsOpen.cons ⟨rfl, rfl⟩
  have intoWord : Place.intoWord.Completes := insertTable.cons ⟨rfl, rfl⟩
  have bridgeAddress : Place.bridgeAddress.Completes := finish.cons ⟨Or.inl rfl, rfl⟩
  have connects : (.connect, .bridgeAddress) ∈ bridgeWords := List.mem_cons_self
  have bridgeWord : Place.bridgeWord.Completes := bridgeAddress.cons connects
  have helps : (.help, .finish) ∈ commandWords := List.mem_cons_self
  have start : Place.start.Completes := finish.cons helps
  cases place <;> assumption

end Completes

/-! ## Sentences lead from place to place -/

section Follows

variable {place item behind closed last : Place} {kinds filter : List Token.Kind}

theorem leads_filter (place : Place) (isFilter : Sentence.Filter filter)
    (takes : place.goal.Takes .whereWord .filterColumn) : ∃ last, place.Leads filter last := by
  cases isFilter with
  | none => exact ⟨place, rfl⟩
  | some isValue =>
      exact ⟨.finish, .filterColumn, takes, .filterEqual, ⟨rfl, rfl⟩, .filterValue, ⟨rfl, rfl⟩,
        .finish, ⟨isValue, rfl⟩, rfl⟩

theorem leads_changes (areChanges : Sentence.Changes kinds) :
    Place.changeColumn.Leads kinds .afterChange := by
  induction areChanges with
  | one isValue =>
      exact ⟨.changeEqual, ⟨rfl, rfl⟩, .changeValue, ⟨rfl, rfl⟩, .afterChange, ⟨isValue, rfl⟩, rfl⟩
  | more isValue _ ih =>
      exact ⟨.changeEqual, ⟨rfl, rfl⟩, .changeValue, ⟨rfl, rfl⟩, .afterChange, ⟨isValue, rfl⟩,
        .changeColumn, Or.inl ⟨rfl, rfl⟩, ih⟩

/-- One kind of item is looked for at a place, and behind it a comma or a parenthesis. -/
structure Place.Lists (place : Place) (isItem : Token.Kind → Prop) (behind closed : Place) :
    Prop where
  takes : ∀ kind next, place.goal.Takes kind next ↔ isItem kind ∧ next = behind
  separator : behind.goal = .separator place closed
  begun : place.mayEnd = false ∧ behind.mayEnd = false

theorem lists_column : Place.column.Lists (· = .name) .afterColumn .valuesWord :=
  ⟨fun _ _ => Iff.rfl, rfl, rfl, rfl⟩

theorem lists_rowValue : Place.rowValue.Lists Token.Kind.IsValue .afterRowValue .finish :=
  ⟨fun _ _ => Iff.rfl, rfl, rfl, rfl⟩

theorem Place.Lists.leads {isItem : Token.Kind → Prop} {count : Nat}
    (lists : item.Lists isItem behind closed) (items : Sentence.Closed isItem count kinds) :
    item.Leads kinds closed := by
  have separates : ∀ kind next, behind.goal.Takes kind next ↔
      (kind = .comma ∧ next = item) ∨ (kind = .rightParen ∧ next = closed) := by
    intro kind next
    rw [lists.separator]
    exact Iff.rfl
  induction items with
  | last isItem =>
      exact ⟨behind, (lists.takes _ _).mpr ⟨isItem, rfl⟩, closed,
        (separates _ _).mpr (Or.inr ⟨rfl, rfl⟩), rfl⟩
  | more isItem _ ih =>
      exact ⟨behind, (lists.takes _ _).mpr ⟨isItem, rfl⟩, item,
        (separates _ _).mpr (Or.inl ⟨rfl, rfl⟩), ih⟩

theorem Outline.leads (outline : Outline kinds) : ∃ last, Place.start.Leads kinds last := by
  have word : ∀ {kind} next {kinds}, (kind, next) ∈ commandWords →
      (∃ last, Place.Leads next kinds last) → ∃ last, Place.start.Leads (kind :: kinds) last := by
    rintro kind next kinds member ⟨last, leads⟩
    exact ⟨last, next, member, leads⟩
  have action : ∀ {kind} next {kinds}, (kind, next) ∈ bridgeWords →
      (∃ last, Place.Leads next kinds last) →
      ∃ last, Place.bridgeWord.Leads (kind :: kinds) last := by
    rintro kind next kinds member ⟨last, leads⟩
    exact ⟨last, next, member, leads⟩
  have filtered : ∀ {filter}, Sentence.Filter filter →
      ∃ last, Place.sourceWord.Leads ([.fromWord, .name] ++ filter) last := by
    intro filter isFilter
    obtain ⟨last, leads⟩ := leads_filter .filterWord isFilter ⟨rfl, rfl⟩
    exact ⟨last, .sourceTable, ⟨rfl, rfl⟩, .filterWord, ⟨rfl, rfl⟩, leads⟩
  have starred : ∀ {filter}, Sentence.Filter filter →
      ∃ last, Place.allColumns.Leads ([.star, .fromWord, .name] ++ filter) last := by
    intro filter isFilter
    obtain ⟨last, leads⟩ := filtered isFilter
    exact ⟨last, .sourceWord, ⟨rfl, rfl⟩, leads⟩
  cases outline with
  | help => exact word .finish (by decide) ⟨_, rfl⟩
  | status => exact word .finish (by decide) ⟨_, rfl⟩
  | stop => exact word .finish (by decide) ⟨_, rfl⟩
  | start => exact word .finish (by decide) ⟨_, rfl⟩
  | select isFilter => exact word _ (by decide) (starred isFilter)
  | subscribe isFilter => exact word _ (by decide) (starred isFilter)
  | unsubscribe isFilter => exact word _ (by decide) (filtered isFilter)
  | delete isFilter => exact word _ (by decide) (filtered isFilter)
  | update areChanges isFilter =>
      obtain ⟨last, leads⟩ := leads_filter .afterChange isFilter (Or.inr ⟨rfl, rfl⟩)
      have further := Place.leads_append.mpr ⟨.afterChange, leads_changes areChanges, leads⟩
      exact word .updateTable (by decide)
        ⟨last, .setWord, ⟨rfl, rfl⟩, .changeColumn, ⟨rfl, rfl⟩, further⟩
  | insert columnsClosed valuesClosed =>
      have opened : Place.valuesWord.Leads [.values, .leftParen] .rowValue :=
        ⟨.valuesOpen, ⟨rfl, rfl⟩, .rowValue, ⟨rfl, rfl⟩, rfl⟩
      have values := Place.leads_append.mpr ⟨_, opened, lists_rowValue.leads valuesClosed⟩
      have columns := Place.leads_append.mpr ⟨_, lists_column.leads columnsClosed, values⟩
      exact word .intoWord (by decide)
        ⟨.finish, .insertTable, ⟨rfl, rfl⟩, .columnsOpen, ⟨rfl, rfl⟩, .column, ⟨rfl, rfl⟩, columns⟩
  | bridgeConnect isValue =>
      have address : Place.bridgeAddress.Leads [_] .finish := ⟨.finish, ⟨isValue, rfl⟩, rfl⟩
      exact word _ (by decide) (action _ (by decide) ⟨_, address⟩)
  | bridgeDisconnect =>
      exact word .bridgeWord (by decide)
        (action .finish (by decide) ⟨_, rfl⟩)
  | bridgeSubscribe =>
      exact word .bridgeWord (by decide)
        (action .finish (by decide) ⟨_, rfl⟩)
  | bridgeUnsubscribe =>
      exact word .bridgeWord (by decide)
        (action .finish (by decide) ⟨_, rfl⟩)

end Follows

/-! ## Where places lead is a sentence -/

section Traced

variable {place next item behind closed last : Place} {kinds : List Token.Kind}
variable {kind : Token.Kind}

/-- Where no sentence may end, a sentence goes on. -/
theorem Place.Leads.goesOn (leads : place.Leads kinds last) (ends : last.mayEnd = true)
    (begun : place.mayEnd = false) :
    ∃ kind others next, kinds = kind :: others ∧ place.goal.Takes kind next ∧
      next.Leads others last := by
  cases kinds with
  | nil =>
      obtain rfl : place = last := leads
      rw [begun] at ends
      nomatch ends
  | cons kind others =>
      obtain ⟨next, takes, further⟩ := leads
      exact ⟨kind, others, next, rfl, takes, further⟩

/-- Where one kind is looked for, a sentence goes on with it. -/
theorem Place.Leads.passes (leads : place.Leads kinds last) (ends : last.mayEnd = true)
    (begun : place.mayEnd = false)
    (only : ∀ found other, place.goal.Takes found other → found = kind ∧ other = next) :
    ∃ others, kinds = kind :: others ∧ next.Leads others last := by
  obtain ⟨found, others, other, rfl, takes, further⟩ := leads.goesOn ends begun
  obtain ⟨rfl, rfl⟩ := only found other takes
  exact ⟨others, rfl, further⟩

/-- Where a value is looked for, a sentence goes on with one. -/
theorem Place.Leads.passesValue (leads : place.Leads kinds last) (ends : last.mayEnd = true)
    (begun : place.mayEnd = false)
    (only : ∀ found other, place.goal.Takes found other → found.IsValue ∧ other = next) :
    ∃ kind others, kinds = kind :: others ∧ kind.IsValue ∧ next.Leads others last := by
  obtain ⟨kind, others, other, rfl, takes, further⟩ := leads.goesOn ends begun
  obtain ⟨isValue, rfl⟩ := only kind other takes
  exact ⟨kind, others, rfl, isValue, further⟩

theorem Place.Leads.finished (leads : Place.finish.Leads kinds last) : kinds = [] := by
  cases kinds with
  | nil => rfl
  | cons kind others =>
      obtain ⟨_, takes, -⟩ := leads
      exact takes.elim

/-- Behind the word of a filter stands the rest of the filter and nothing else. -/
theorem Place.Leads.filterParts (leads : Place.filterColumn.Leads kinds last)
    (ends : last.mayEnd = true) : Sentence.Filter (.whereWord :: kinds) := by
  obtain ⟨_, rfl, afterName⟩ := leads.passes ends rfl fun _ _ takes => takes
  obtain ⟨_, rfl, afterEqual⟩ := afterName.passes ends rfl fun _ _ takes => takes
  obtain ⟨kind, _, rfl, isValue, behind⟩ := afterEqual.passesValue ends rfl fun _ _ takes => takes
  obtain rfl := behind.finished
  exact .some isValue

theorem Place.Leads.filter (leads : Place.filterWord.Leads kinds last)
    (ends : last.mayEnd = true) : Sentence.Filter kinds := by
  cases kinds with
  | nil => exact .none
  | cons kind others =>
      obtain ⟨_, ⟨rfl, rfl⟩, further⟩ := leads
      exact further.filterParts ends

theorem Place.Leads.changes (leads : Place.changeColumn.Leads kinds last)
    (ends : last.mayEnd = true) :
    ∃ changes filter, kinds = changes ++ filter ∧ Sentence.Changes changes ∧
      Sentence.Filter filter := by
  induction length : kinds.length using Nat.strong_induction_on generalizing kinds with
  | _ count ih =>
      obtain ⟨_, rfl, afterName⟩ := leads.passes ends rfl fun _ _ takes => takes
      obtain ⟨_, rfl, afterEqual⟩ := afterName.passes ends rfl fun _ _ takes => takes
      obtain ⟨kind, others, rfl, isValue, behind⟩ :=
        afterEqual.passesValue ends rfl fun _ _ takes => takes
      cases others with
      | nil => exact ⟨[.name, .equal, kind], [], rfl, .one isValue, .none⟩
      | cons mark others =>
          obtain ⟨_, ⟨rfl, rfl⟩ | ⟨rfl, rfl⟩, further⟩ := behind
          · have shorter : others.length < count := by
              simp only [List.length_cons] at length
              omega
            obtain ⟨changes, filter, rfl, areChanges, isFilter⟩ :=
              ih others.length shorter further rfl
            exact ⟨.name :: .equal :: kind :: .comma :: changes, filter, rfl,
              .more isValue areChanges, isFilter⟩
          · exact ⟨[.name, .equal, kind], .whereWord :: others, rfl, .one isValue,
              further.filterParts ends⟩

theorem Place.Lists.closed_of_leads {isItem : Token.Kind → Prop}
    (lists : item.Lists isItem behind closed) (leads : item.Leads kinds last)
    (ends : last.mayEnd = true) :
    ∃ count itemKinds others, kinds = itemKinds ++ others ∧
      Sentence.Closed isItem count itemKinds ∧ closed.Leads others last := by
  induction length : kinds.length using Nat.strong_induction_on generalizing kinds with
  | _ count ih =>
      obtain ⟨kind, _, _, rfl, takes, afterItem⟩ := leads.goesOn ends lists.begun.1
      obtain ⟨isItem, rfl⟩ := (lists.takes _ _).mp takes
      obtain ⟨mark, others, next, rfl, separates, further⟩ := afterItem.goesOn ends lists.begun.2
      rw [lists.separator] at separates
      obtain ⟨rfl, rfl⟩ | ⟨rfl, rfl⟩ := separates
      · have shorter : others.length < count := by
          simp only [List.length_cons] at length
          omega
        obtain ⟨more, itemKinds, rest, rfl, items, leadsOn⟩ :=
          ih others.length shorter further rfl
        exact ⟨more + 1, kind :: .comma :: itemKinds, rest, rfl, .more isItem items, leadsOn⟩
      · exact ⟨1, [kind, .rightParen], others, rfl, .last isItem, further⟩

theorem Place.Leads.table (leads : Place.sourceWord.Leads kinds last) (ends : last.mayEnd = true) :
    ∃ filter, kinds = [.fromWord, .name] ++ filter ∧ Sentence.Filter filter := by
  obtain ⟨_, rfl, afterWord⟩ := leads.passes ends rfl fun _ _ takes => takes
  obtain ⟨filter, rfl, behind⟩ := afterWord.passes ends rfl fun _ _ takes => takes
  exact ⟨filter, rfl, behind.filter ends⟩

theorem Place.Leads.starred (leads : Place.allColumns.Leads kinds last)
    (ends : last.mayEnd = true) :
    ∃ filter, kinds = [.star, .fromWord, .name] ++ filter ∧ Sentence.Filter filter := by
  obtain ⟨_, rfl, afterStar⟩ := leads.passes ends rfl fun _ _ takes => takes
  obtain ⟨filter, rfl, isFilter⟩ := afterStar.table ends
  exact ⟨filter, rfl, isFilter⟩

theorem Outline.of_update (leads : Place.updateTable.Leads kinds last)
    (ends : last.mayEnd = true) : Outline (.update :: kinds) := by
  obtain ⟨_, rfl, afterTable⟩ := leads.passes ends rfl fun _ _ takes => takes
  obtain ⟨_, rfl, afterSet⟩ := afterTable.passes ends rfl fun _ _ takes => takes
  obtain ⟨changes, filter, rfl, areChanges, isFilter⟩ := afterSet.changes ends
  exact .update areChanges isFilter

theorem Outline.of_insert (leads : Place.intoWord.Leads kinds last) (ends : last.mayEnd = true) :
    Outline (.insert :: kinds) := by
  obtain ⟨_, rfl, afterInto⟩ := leads.passes ends rfl fun _ _ takes => takes
  obtain ⟨_, rfl, afterTable⟩ := afterInto.passes ends rfl fun _ _ takes => takes
  obtain ⟨_, rfl, inColumns⟩ := afterTable.passes ends rfl fun _ _ takes => takes
  obtain ⟨_, columns, _, rfl, columnsClosed, afterColumns⟩ :=
    lists_column.closed_of_leads inColumns ends
  obtain ⟨_, rfl, afterWord⟩ := afterColumns.passes ends rfl fun _ _ takes => takes
  obtain ⟨_, rfl, inValues⟩ := afterWord.passes ends rfl fun _ _ takes => takes
  obtain ⟨_, values, _, rfl, valuesClosed, behind⟩ := lists_rowValue.closed_of_leads inValues ends
  obtain rfl := behind.finished
  rw [List.append_nil]
  exact .insert columnsClosed valuesClosed

theorem Outline.of_bridge (leads : Place.bridgeWord.Leads kinds last) (ends : last.mayEnd = true) :
    Outline (.mysql :: kinds) := by
  obtain ⟨kind, others, next, rfl, takes, further⟩ := leads.goesOn ends rfl
  have member : (kind, next) ∈ bridgeWords := takes
  simp only [bridgeWords, List.mem_cons, List.not_mem_nil, or_false, Prod.mk.injEq] at member
  rcases member with ⟨rfl, rfl⟩ | ⟨rfl, rfl⟩ | ⟨rfl, rfl⟩ | ⟨rfl, rfl⟩
  · obtain ⟨kind, _, rfl, isValue, behind⟩ := further.passesValue ends rfl fun _ _ takes => takes
    obtain rfl := behind.finished
    exact .bridgeConnect isValue
  · obtain rfl := further.finished
    exact .bridgeDisconnect
  · obtain rfl := further.finished
    exact .bridgeSubscribe
  · obtain rfl := further.finished
    exact .bridgeUnsubscribe

theorem Outline.of_leads (leads : Place.start.Leads kinds last) (ends : last.mayEnd = true) :
    Outline kinds := by
  obtain ⟨kind, others, next, rfl, takes, further⟩ := leads.goesOn ends rfl
  have member : (kind, next) ∈ commandWords := takes
  simp only [commandWords, List.mem_cons, List.not_mem_nil, or_false, Prod.mk.injEq] at member
  rcases member with ⟨rfl, rfl⟩ | ⟨rfl, rfl⟩ | ⟨rfl, rfl⟩ | ⟨rfl, rfl⟩ | ⟨rfl, rfl⟩ |
    ⟨rfl, rfl⟩ | ⟨rfl, rfl⟩ | ⟨rfl, rfl⟩ | ⟨rfl, rfl⟩ | ⟨rfl, rfl⟩ | ⟨rfl, rfl⟩
  · obtain rfl := further.finished
    exact .help
  · obtain rfl := further.finished
    exact .status
  · obtain rfl := further.finished
    exact .stop
  · obtain rfl := further.finished
    exact .start
  · obtain ⟨filter, rfl, isFilter⟩ := further.starred ends
    exact .select isFilter
  · obtain ⟨filter, rfl, isFilter⟩ := further.starred ends
    exact .subscribe isFilter
  · obtain ⟨filter, rfl, isFilter⟩ := further.table ends
    exact .unsubscribe isFilter
  · exact .of_insert further ends
  · exact .of_update further ends
  · obtain ⟨filter, rfl, isFilter⟩ := further.table ends
    exact .delete isFilter
  · exact .of_bridge further ends

/-- A sentence can begin with some kinds of tokens exactly when they lead from the start of a
command to some place. -/
theorem unfinished_iff_leads : Unfinished kinds ↔ ∃ last, Place.start.Leads kinds last := by
  constructor
  · rintro ⟨_, outline, others, rfl⟩
    obtain ⟨last, leads⟩ := outline.leads
    obtain ⟨middle, begins, -⟩ := Place.leads_append.mp leads
    exact ⟨middle, begins⟩
  · rintro ⟨last, leads⟩
    obtain ⟨others, final, further, ends⟩ := last.completes
    exact ⟨kinds ++ others, .of_leads (Place.leads_append.mpr ⟨last, leads, further⟩) ends,
      List.prefix_append kinds others⟩

end Traced

/-! ## Texts for unfinished sentences -/

/-- A token of each kind. -/
def Token.Kind.sample : Token.Kind → Token
  | name => ⟨.name, "a"⟩
  | value => ⟨.value, "a"⟩
  | string => ⟨.string, "\x27\x27"⟩
  | kind => ⟨kind, kind.spelling⟩

/-- A text with a token of each of the given kinds, and a blank in front of each token. -/
def sampleText (kinds : List Token.Kind) : List Char :=
  kinds.flatMap fun kind => ' ' :: kind.sample.text.toList

section Samples

variable {kinds : List Token.Kind} {last : Place}

theorem Token.Kind.sample_kind (kind : Token.Kind) : kind.sample.kind = kind := by
  cases kind <;> rfl

theorem Token.Kind.spelling_sample (kind : Token.Kind) :
    kind.Spelling kind.sample.text.toList := by
  cases kind with
  | name => exact ⟨'a', [], rfl, by decide +kernel, nofun⟩
  | value => exact ⟨nofun, List.forall_mem_singleton.mpr (by decide +kernel)⟩
  | string => exact ⟨[], rfl⟩
  | _ => exact rfl

theorem spells_sampleText (kinds : List Token.Kind) :
    Spells (kinds.map Token.Kind.sample) (sampleText kinds) := by
  induction kinds with
  | nil => exact .blank nofun
  | cons kind kinds ih =>
      have space : Blank [' '] := by
        decide
      have ends : kind.EndsBefore isBlank (sampleText kinds) := by
        cases kinds with
        | nil => exact (endsBefore_space kind []).1
        | cons => exact (endsBefore_space kind _).2
      have sameKind := kind.sample_kind
      exact .token space (by rw [sameKind]; exact kind.spelling_sample) (by rwa [sameKind]) ih

theorem Place.Leads.ne_start (leads : Place.start.Leads kinds last) (occupied : kinds ≠ []) :
    last ≠ .start := by
  obtain ⟨others, kind, rfl⟩ := (List.eq_nil_or_concat' kinds).resolve_left occupied
  obtain ⟨middle, -, _, takes, rfl⟩ := Place.leads_append.mp leads
  exact Place.ne_start_of_takes takes

/-- The scan of a text with samples of some kinds finds these kinds, if they lead to a place. -/
theorem kinds_of_sampleText (leads : Place.start.Leads kinds last) (occupied : kinds ≠ []) :
    (tokensOf (String.ofList (sampleText kinds))).map Token.kind = kinds ++ [.endOfInput] := by
  have sameKinds : (kinds.map Token.Kind.sample).map Token.kind = kinds := by
    rw [List.map_map]
    exact List.map_id'' Token.Kind.sample_kind kinds
  have begins : (Cursor.atStart (String.ofList (sampleText kinds))).rest = sampleText kinds :=
    String.toList_ofList
  have found := Scanner.tokensAt_of_spells (spells_sampleText kinds) (sameKinds.symm ▸ leads)
    (leads.ne_start occupied) begins
  change (Scanner.tokensAt .start _).map Token.kind = _
  rw [found, List.map_append, sameKinds]
  rfl

end Samples

/-! ## Scans of unfinished sentences -/

section Scans

variable {text : String} {kinds : List Token.Kind} {front back : List Token} {error : Token}

/-- What a scan hands out in front of its end begins a sentence, if there is no fault. -/
theorem unfinished_of_tokensOf (sound : .error ∉ kinds)
    (scanned : (tokensOf text).map Token.kind = kinds ++ [.endOfInput]) : Unfinished kinds := by
  obtain ⟨taken, last, closing, whole, leads, -, closes⟩ := tokensOf_leads text
  rw [whole, List.map_append] at scanned
  cases closes with
  | fault stop =>
      have split :
          (taken.map Token.kind ++ [.error]) ++ [.endOfInput] = kinds ++ [.endOfInput] := by
        rw [← scanned, List.append_assoc]
        rfl
      rw [← List.append_cancel_right split] at sound
      exact (sound (List.mem_append_right _ (List.mem_singleton_self _))).elim
  | exhausted begun stop =>
      have same : taken.map Token.kind = kinds := List.append_cancel_right scanned
      rw [← same]
      exact unfinished_iff_leads.mpr ⟨last, leads⟩

/-- An error token stands in front of the tokens that end a scan, or it is none of them. -/
theorem Closing.front_eq_nil {last : Place} {closing : List PlacedToken}
    (closes : Closing last closing)
    (split : closing.map PlacedToken.token = front ++ error :: back)
    (isError : error.kind = .error) : front = [] := by
  have notEnding : error ≠ .ending := by
    rintro rfl
    nomatch isError
  cases closes with
  | fault stop =>
      obtain _ | ⟨first, _ | ⟨second, front⟩⟩ := front
      · rfl
      · obtain ⟨-, rest⟩ := List.cons.inj split
        exact (notEnding (List.cons.inj rest).1.symm).elim
      · simp at split
  | exhausted begun stop =>
      cases front with
      | nil => rfl
      | cons first front => simp at split

theorem unfinished_of_error (broken : tokensOf text = front ++ error :: back)
    (isError : error.kind = .error) : Unfinished (front.map Token.kind) := by
  obtain ⟨taken, last, closing, whole, leads, -, closes⟩ := tokensOf_leads text
  have sound : ∀ token ∈ taken, token.kind ≠ .error := by
    intro token member
    exact (leads.isToken token.kind (List.mem_map_of_mem member)).2
  rw [whole, List.append_eq_append_iff] at broken
  have same : front = taken := by
    obtain ⟨more, same, rest⟩ | ⟨more, same, rest⟩ := broken
    · rw [same, closes.front_eq_nil rest isError, List.append_nil]
    · cases more with
      | nil => rw [same, List.append_nil]
      | cons first more =>
          obtain ⟨rfl, -⟩ := List.cons.inj rest
          exact (sound error (by simp [same]) isError).elim
  rw [same]
  exact unfinished_iff_leads.mpr ⟨last, leads⟩

end Scans

/-- The kinds of the tokens in front of the end of a text are those with which a sentence can
begin, and each sentence can break off behind any of its tokens. In front of a fault stands the
beginning of a sentence, too. -/
theorem scan_unfinished :
    (∀ kinds : List Token.Kind, kinds ≠ [] → .error ∉ kinds →
      ((∃ text, (tokensOf text).map Token.kind = kinds ++ [.endOfInput]) ↔ Unfinished kinds)) ∧
    ∀ text front error back, tokensOf text = front ++ error :: back → error.kind = .error →
      Unfinished (front.map Token.kind) := by
  refine ⟨?_, fun _ _ _ _ => unfinished_of_error⟩
  intro kinds occupied sound
  constructor
  · rintro ⟨text, scanned⟩
    exact unfinished_of_tokensOf sound scanned
  · intro unfinished
    obtain ⟨last, leads⟩ := unfinished_iff_leads.mp unfinished
    exact ⟨String.ofList (sampleText kinds), kinds_of_sampleText leads occupied⟩

end TableFeed
