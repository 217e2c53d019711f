import TableFeed.Proofs.Command.Sentence

/-!
# Where the reading of a command stops

A scan leads from place to place up to the tokens that close it: a fault, or the end of the command.
The readers follow the same places. Each of them goes from one place to another one, or stops at the
closing tokens, and then those tokens decide the reason. The main statement says the same about a
whole command. It has to leave out what stops a reader in front of the closing tokens: a filter
behind the table of an unsubscription, a quoted address, and an insertion whose lists differ in
length.
-/

namespace TableFeed

/-- From a place on, tokens lead up to the tokens that close a scan. -/
inductive Along (closing : List Token) : Place → List Token → Prop
  | stop (place : Place) : Along closing place closing
  | token {place next : Place} {token : Token} {later : List Token}
      (takes : place.goal.Takes token.kind next) (spelled : token.kind.Spelling token.text.toList)
      (along : Along closing next later) : Along closing place (token :: later)

theorem along_of_leads (closing : List Token) {taken : List Token} {place last : Place}
    (leads : place.Leads (taken.map Token.kind) last)
    (spellings : ∀ token ∈ taken, token.kind.Spelling token.text.toList) :
    Along closing place (taken ++ closing) := by
  induction taken generalizing place with
  | nil => exact .stop place
  | cons token taken ih =>
      obtain ⟨next, takes, further⟩ := leads
      obtain ⟨spelled, others⟩ := List.forall_mem_cons.mp spellings
      exact .token takes spelled (ih further others)

theorem text_of_isKeyword {token : Token} (keyword : token.kind.isKeyword = true)
    (spelled : token.kind.Spelling token.text.toList) : token.text = token.kind.spelling :=
  String.toList_inj.mp ((spelling_eq_of_isKeyword keyword).mp spelled)

/-- Some items, with commas between them and a parenthesis behind the last one. The number says how
many they are. -/
inductive Sentence.Closed (item : Token.Kind → Prop) : Nat → List Token.Kind → Prop
  | last {kind : Token.Kind} (isItem : item kind) : Closed item 1 [kind, .rightParen]
  | more {kind : Token.Kind} {count : Nat} {others : List Token.Kind} (isItem : item kind)
      (closed : Closed item count others) : Closed item (count + 1) (kind :: .comma :: others)

/-- The reasons to refuse tokens whatever stands behind the first few of them: a filter behind the
table of an unsubscription, a quoted address, and an insertion whose lists differ in length. -/
inductive Early (tokens : List Token) : CommandError → Prop
  | filtered
      (begins : [.unsubscribe, .fromWord, .name, .whereWord] <+: tokens.map Token.kind) :
      Early tokens (.unexpected .ending "where")
  | quoted {bridge connect : String} {address : String}
      (begins : [⟨.mysql, bridge⟩, ⟨.connect, connect⟩, ⟨.string, address⟩] <+: tokens) :
      Early tokens (.unexpected .address address)
  | miscounted {columnKinds valueKinds : List Token.Kind} {columns values : Nat}
      (begins : [.insert, .into, .name, .leftParen] ++ columnKinds ++ [.values, .leftParen] ++
        valueKinds <+: tokens.map Token.kind)
      (columnsClosed : Sentence.Closed (· = .name) columns columnKinds)
      (valuesClosed : Sentence.Closed Token.Kind.IsValue values valueKinds)
      (differ : columns ≠ values) : Early tokens (.valueCount columns values)

namespace Reader

/-- What stands behind something that was read, and what the reason is where nothing was read. -/
def Ends {α : Type} (after : List Token → Prop) (fails : CommandError → Prop) :
    Except CommandError (α × List Token) → Prop
  | .ok (_, rest) => after rest
  | .error reason => fails reason

/-- Nothing but the end of the command was left, wherever the reader is. -/
def Finished (closing : List Token) : List Token → Prop :=
  fun _ => (front closing).kind = .endOfInput

/-- The reasons to stop at the tokens that close a scan. -/
inductive Stops (closing : List Token) : CommandError → Prop
  | reported (broken : (front closing).kind = .error) :
      Stops closing (.lexical (front closing).text)
  | ended {expected : Expected} (ended : (front closing).kind = .endOfInput)
      (begun : expected ≠ .command) : Stops closing (.unexpected expected "EOF")

/-- The reasons why the tokens of a scan are no command. The bridge gives a reason of its own when
no word stands behind its name. -/
inductive Fails (closing tokens : List Token) : CommandError → Prop
  | stops {reason : CommandError} (stops : Stops closing reason) : Fails closing tokens reason
  | early {reason : CommandError} (early : Early tokens reason) : Fails closing tokens reason
  | unnamed {word : Token} (split : tokens = word :: closing) (isBridge : word.kind = .mysql)
      (ended : (front closing).kind = .endOfInput) :
      Fails closing tokens (.noBridgeAction "EOF")

/-- From a place on, a reader gets to where the condition holds, or it stops at the closing
tokens. -/
def Goes {α : Type} (closing : List Token) (reader : Reader α) (place : Place)
    (after : List Token → Prop) : Prop :=
  ∀ tokens, Along closing place tokens → Ends after (Stops closing) (reader tokens)

/-- A token of the right kind is read, a fault is reported, and at the end of the command something
is missing. -/
structure Seeks {α : Type} (read : Token → Except CommandError α) (item : Token.Kind → Prop) :
    Prop where
  reads : ∀ token, item token.kind → ∃ answer, read token = .ok answer
  only : ∀ token answer, read token = .ok answer → item token.kind
  reports : ∀ token, token.kind = .error → read token = .error (.lexical token.text)
  misses : ∀ token, token.kind = .endOfInput →
    ∃ expected, expected ≠ .command ∧ read token = .error (.unexpected expected "EOF")

/-- A fault or the end of the command stands in front. -/
def Halts (closing : List Token) : Prop :=
  (front closing).kind = .error ∨ (front closing).kind = .endOfInput

section Ends

variable {α β : Type} {first : Reader α} {second : α → Reader β} {tokens rest : List Token}
variable {after middle : List Token → Prop} {fails others : CommandError → Prop}
variable {result : Except CommandError (α × List Token)}

theorem bind_of_ok {answer : α} (taken : first tokens = .ok (answer, rest)) :
    (first >>= second) tokens = second answer rest := by
  simp [bind, StateT.bind, Except.bind, taken]

theorem ends_of_ok {answer : α} (taken : result = .ok (answer, rest)) (holds : after rest) :
    Ends after fails result := by
  rw [taken]
  exact holds

theorem ends_of_error {reason : CommandError} (failed : result = .error reason)
    (holds : fails reason) : Ends after fails result := by
  rw [failed]
  exact holds

/-- What holds behind the first reader is what the second one starts from. -/
theorem Ends.bind (ends : Ends middle fails (first tokens))
    (further : ∀ answer rest, first tokens = .ok (answer, rest) → middle rest →
      Ends after fails (second answer rest)) :
    Ends after fails ((first >>= second) tokens) := by
  cases result : first tokens with
  | error reason =>
      rw [result] at ends
      refine ends_of_error ?_ ends
      simp [Bind.bind, StateT.bind, Except.bind, result]
  | ok found =>
      rw [result] at ends
      rw [bind_of_ok result]
      exact further found.1 found.2 result ends

theorem Ends.weaken (ends : Ends after fails result)
    (weaker : ∀ reason, fails reason → others reason) : Ends after others result := by
  cases result with
  | error reason => exact weaker reason ends
  | ok found => exact ends

end Ends

section Seeks

theorem seeks_textOf (kind : Token.Kind) (expected : Expected) (sound : kind ≠ .error)
    (inside : kind ≠ .endOfInput) (begun : expected ≠ .command) :
    Seeks (Token.textOf kind expected) (· = kind) where
  reads := by
    rintro ⟨_, text⟩ rfl
    exact ⟨text, (Token.textOf_eq_ok sound).mpr rfl⟩
  only := by
    intro token answer answered
    rw [(Token.textOf_eq_ok sound).mp answered]
  reports := by
    rintro ⟨_, text⟩ rfl
    rfl
  misses := by
    rintro ⟨_, text⟩ rfl
    refine ⟨expected, begun, ?_⟩
    rw [Token.textOf]
    exact if_neg inside.symm

theorem seeks_valueText : Seeks Token.valueText Token.Kind.IsValue where
  reads := by
    intro token isValue
    obtain ⟨text, fits⟩ := exists_value_of_isValue isValue
    exact ⟨text, Token.valueText_eq_ok.mpr fits⟩
  only := by
    intro token answer answered
    exact (Token.valueText_eq_ok.mp answered).admits
  reports := by
    rintro ⟨_, text⟩ rfl
    rfl
  misses := by
    rintro ⟨_, text⟩ rfl
    exact ⟨.value, nofun, rfl⟩

end Seeks

section Lists

variable {α : Type} {read : Token → Except CommandError α} {tokens : List Token}
variable {after : List Token → Prop} {fails : CommandError → Prop}

theorem items_comma {token comma : Token} {later : List Token} {answer : α}
    (answered : read token = .ok answer) (isComma : comma.kind = .comma)
    (others : Ends after fails (items read later)) :
    Ends after fails (items read (token :: comma :: later)) := by
  cases behind : items read later with
  | error reason =>
      rw [behind] at others
      refine ends_of_error ?_ others
      simp [items, answered, Token.checked, isComma, behind, Bind.bind, Except.bind]
  | ok found =>
      rw [behind] at others
      have taken : items read (token :: comma :: later) = .ok (answer :: found.1, found.2) :=
        items_cons_cons_eq_ok.mpr ⟨answer, answered, Or.inr ⟨isComma, found.1, behind, rfl⟩⟩
      exact ends_of_ok taken others

theorem entries_of_error {reason : CommandError} (failed : entry tokens = .error reason) :
    entries tokens = .error reason := by
  rw [entries]
  split
  · rename_i same
    cases failed.symm.trans same
    rfl
  · rename_i same
    nomatch failed.symm.trans same
  · rename_i same
    nomatch failed.symm.trans same

theorem entries_comma {first : Entry} {comma : Token} {later : List Token}
    (taken : entry tokens = .ok (first, comma :: later)) (isComma : comma.kind = .comma)
    (others : Ends after fails (entries later)) : Ends after fails (entries tokens) := by
  cases behind : entries later with
  | error reason =>
      rw [behind] at others
      refine ends_of_error ?_ others
      obtain ⟨_, text⟩ := comma
      obtain rfl := isComma
      rw [entries]
      split
      · rename_i same
        nomatch taken.symm.trans same
      · rename_i same
        cases taken.symm.trans same
        simp [behind, Bind.bind, Except.bind]
      · rename_i noComma same
        cases taken.symm.trans same
        exact (noComma text later rfl).elim
  | ok found =>
      rw [behind] at others
      have allTaken : entries tokens = .ok (first :: found.1, found.2) :=
        entries_eq_ok_step.mpr ⟨first, comma :: later, taken,
          Or.inr ⟨comma, later, rfl, isComma, found.1, behind, rfl⟩⟩
      exact ends_of_ok allTaken others

end Lists

section Goes

variable {α β : Type} {closing tokens : List Token} {place next : Place}
variable {after : List Token → Prop}
variable {read : Token → Except CommandError α} {item : Token.Kind → Prop}

theorem goes_pure (answer : α) (place : Place) :
    Goes closing (pure answer) place (Along closing place) :=
  fun _ along => along

theorem Goes.bind {first : Reader α} {second : α → Reader β}
    (goes : Goes closing first place (Along closing next))
    (further : ∀ answer, Goes closing (second answer) next after) :
    Goes closing (first >>= second) place after :=
  fun tokens along => (goes tokens along).bind fun answer rest _ => further answer rest

theorem Goes.ends {reader : Reader α} {whole : List Token} (goes : Goes closing reader place after)
    (along : Along closing place tokens) : Ends after (Fails closing whole) (reader tokens) :=
  (goes tokens along).weaken fun _ => .stops

/-- What is read behind a reader may depend on the tokens that the reader took. -/
theorem Goes.followed {first : Reader α} {second : α → Reader β} {whole : List Token}
    (goes : Goes closing first place (Along closing next)) (along : Along closing place tokens)
    (further : ∀ answer rest, first tokens = .ok (answer, rest) → Along closing next rest →
      Ends after (Fails closing whole) (second answer rest)) :
    Ends after (Fails closing whole) ((first >>= second) tokens) :=
  (goes.ends along).bind further

variable (halts : Halts closing)

include halts

theorem Halts.kind_ne (kind : Token.Kind) (sound : kind ≠ .error) (inside : kind ≠ .endOfInput) :
    (front closing).kind ≠ kind := by
  rcases halts with broken | ended
  · rw [broken]
    exact sound.symm
  · rw [ended]
    exact inside.symm

theorem Seeks.stops (seeks : Seeks read item) :
    ∃ reason, read (front closing) = .error reason ∧ Stops closing reason := by
  rcases halts with broken | ended
  · exact ⟨_, seeks.reports _ broken, .reported broken⟩
  · obtain ⟨expected, begun, missed⟩ := seeks.misses _ ended
    exact ⟨_, missed, .ended ended begun⟩

theorem goes_one (seeks : Seeks read item)
    (only : ∀ kind behind, place.goal.Takes kind behind → item kind ∧ behind = next) :
    Goes closing (one read) place (Along closing next) := by
  intro tokens along
  cases along with
  | stop =>
      obtain ⟨reason, failed, stops⟩ := seeks.stops halts
      refine ends_of_error ?_ stops
      simp only [one, failed]
      rfl
  | @token _ behind token later takes spelled along =>
      obtain ⟨isItem, rfl⟩ := only _ _ takes
      obtain ⟨answer, answered⟩ := seeks.reads token isItem
      have taken : one read (token :: later) = .ok (answer, later) := one_eq_ok.mpr ⟨answered, rfl⟩
      exact ends_of_ok taken along

theorem goes_name {expected : Expected} (next : Place) (goal : place.goal = .name next)
    (begun : expected ≠ .command) :
    Goes closing (expect .name expected) place (Along closing next) := by
  apply goes_one halts (seeks_textOf .name expected (by decide) (by decide) begun)
  intro kind behind takes
  rwa [goal] at takes

theorem goes_word {kind : Token.Kind} (next : Place)
    (takes : ∀ found behind, place.goal.Takes found behind ↔ found = kind ∧ behind = next) :
    Goes closing (expectWord kind) place (Along closing next) := by
  obtain ⟨inside, sound⟩ := ((takes kind next).mpr ⟨rfl, rfl⟩).isToken place.goal_sound
  have seeks := seeks_textOf kind (.token kind) sound inside nofun
  exact (goes_one halts seeks fun found behind => (takes found behind).mp).bind
    fun _ => goes_pure () next

theorem goes_value (next : Place) (goal : place.goal = .value next) :
    Goes closing (one Token.valueText) place (Along closing next) := by
  apply goes_one halts seeks_valueText
  intro kind behind takes
  rwa [goal] at takes

theorem goes_entry {equal value : Place} (next : Place) (column : place.goal = .name equal)
    (mark : equal.goal = .mark '=' .equal value) (behind : value.goal = .value next) :
    Goes closing entry place (Along closing next) := by
  have isEqual : ∀ found further, equal.goal.Takes found further ↔
      found = .equal ∧ further = value := by
    rw [mark]
    exact fun _ _ => Iff.rfl
  apply (goes_name halts equal column (by decide)).bind
  intro name
  apply (goes_word halts value isEqual).bind
  intro _
  exact (goes_value halts next behind).bind fun text => goes_pure _ next

/-- Without a filter the scan has come to its end. -/
theorem goes_filter : Goes closing filter .filterWord (Along closing .finish) := by
  intro tokens along
  cases along with
  | stop =>
      have noWord := halts.kind_ne .whereWord (by decide) (by decide)
      have taken : filter closing = .ok (none, closing) :=
        filter_eq_ok.mpr ⟨taken_nil.mpr rfl, fun _ => noWord⟩
      exact ends_of_ok taken (.stop .finish)
  | @token _ next token later takes spelled along =>
      obtain ⟨isWord, rfl⟩ := takes
      have begins : filter (token :: later) = (do
          expectWord .whereWord
          return some (← entry) : Reader (Option Entry)) (token :: later) := by
        simp [filter, nextKind, front, isWord, Bind.bind, StateT.bind, Except.bind]
      have goes : Goes closing (do
          expectWord .whereWord
          return some (← entry) : Reader (Option Entry)) .filterWord (Along closing .finish) := by
        apply (goes_word halts .filterColumn fun _ _ => Iff.rfl).bind
        intro _
        exact (goes_entry halts .finish rfl rfl rfl).bind fun found => goes_pure _ .finish
      rw [begins]
      exact goes _ (.token ⟨isWord, rfl⟩ spelled along)

theorem goes_tableFilter : Goes closing tableFilter .sourceWord (Along closing .finish) := by
  apply (goes_word halts .sourceTable fun _ _ => Iff.rfl).bind
  intro _
  apply (goes_name halts .filterWord rfl (by decide)).bind
  intro name
  exact (goes_filter halts).bind fun filtered => goes_pure _ .finish

theorem items_stops (seeks : Seeks read item) :
    Ends (Along closing next) (Stops closing) (items read closing) := by
  obtain ⟨reason, failed, stops⟩ := seeks.stops halts
  refine ends_of_error ?_ stops
  rcases closing with _ | ⟨token, _ | ⟨separator, later⟩⟩
  · have missed : read .ending = .error reason := failed
    simp [items, missed, Bind.bind, Except.bind]
  · have missed : read token = .error reason := failed
    simp [items, missed, Bind.bind, Except.bind]
  · have missed : read token = .error reason := failed
    simp [items, missed, Bind.bind, Except.bind]

theorem items_separator_stops {token : Token} {answer : α} (answered : read token = .ok answer) :
    Ends (Along closing next) (Stops closing) (items read (token :: closing)) := by
  have begun : Expected.separator ≠ .command := by
    decide
  cases closing with
  | nil =>
      refine ends_of_error ?_ (.ended rfl begun)
      simp only [items, answered]
      rfl
  | cons separator later =>
      rcases halts with broken | ended
      · have isBroken : separator.kind = .error := broken
        refine ends_of_error ?_ (.reported broken)
        simp [items, answered, Token.checked, isBroken, front, Bind.bind, Except.bind]
      · have isEnded : separator.kind = .endOfInput := ended
        refine ends_of_error ?_ (.ended ended begun)
        simp [items, answered, Token.checked, isEnded, Token.shown, Token.isEnding,
          Token.Kind.spelling, Bind.bind, Except.bind, throw, throwThe, MonadExceptOf.throw]

/-- Items are taken up to the parenthesis behind them. -/
theorem goes_items {behind : Place} (next : Place) (seeks : Seeks read item)
    (only : ∀ kind further, place.goal.Takes kind further → item kind ∧ further = behind)
    (goal : behind.goal = .separator place next) :
    Goes closing (items read) place (Along closing next) := by
  intro tokens along
  -- Items are read two tokens at a time, so the closing tokens stand in front or behind one token.
  induction tokens using items.induct with
  | case1 =>
      cases along with
      | stop => exact items_stops halts seeks
  | case2 token =>
      cases along with
      | stop => exact items_stops halts seeks
      | token takes spelled along =>
          obtain ⟨answer, answered⟩ := seeks.reads token (only _ _ takes).1
          cases along with
          | stop => exact items_separator_stops halts answered
  | case3 token separator later ih =>
      cases along with
      | stop => exact items_stops halts seeks
      | token takes spelled along =>
          obtain ⟨isItem, rfl⟩ := only _ _ takes
          obtain ⟨answer, answered⟩ := seeks.reads token isItem
          cases along with
          | stop => exact items_separator_stops halts answered
          | token takes spelled along =>
              rw [goal] at takes
              rcases takes with ⟨isComma, rfl⟩ | ⟨isClosed, rfl⟩
              · exact items_comma answered isComma (ih along)
              · have taken : items read (token :: separator :: later) = .ok ([answer], later) :=
                  items_cons_cons_eq_ok.mpr ⟨answer, answered, Or.inl ⟨isClosed, rfl, rfl⟩⟩
                exact ends_of_ok taken along

/-- Behind the last entry a filter may stand, but no comma. -/
theorem goes_entries : Goes closing entries .changeColumn (Along closing .filterWord) := by
  intro tokens along
  induction length : tokens.length using Nat.strong_induction_on generalizing tokens with
  | _ count ih =>
      have first := goes_entry halts .afterChange rfl rfl rfl tokens along
      cases taken : entry tokens with
      | error reason =>
          rw [taken] at first
          exact ends_of_error (entries_of_error taken) first
      | ok found =>
          rw [taken] at first
          obtain ⟨entry, rest⟩ := found
          have noFurther : (front rest).kind ≠ .comma → entries tokens = .ok ([entry], rest) :=
            fun other => entries_eq_ok_step.mpr ⟨entry, rest, taken, Or.inl ⟨other, rfl, rfl⟩⟩
          cases first with
          | stop =>
              have other := halts.kind_ne .comma (by decide) (by decide)
              exact ends_of_ok (noFurther other) (.stop .filterWord)
          | @token _ next token later takes spelled along =>
              rcases takes with ⟨isComma, rfl⟩ | ⟨isWord, rfl⟩
              · have shorter : later.length < count := by
                  have decreases := length_lt_of_entry taken
                  simp only [List.length_cons] at decreases
                  omega
                exact entries_comma taken isComma (ih later.length shorter later along rfl)
              · have other : (front (token :: later)).kind ≠ .comma := by
                  simp [front, isWord]
                exact ends_of_ok (noFurther other) (.token ⟨isWord, rfl⟩ spelled along)

end Goes

section Kinds

variable {α : Type} {tokens rest : List Token}

theorem kinds_of_expectWord {kind : Token.Kind} {answer : Unit}
    (taken : expectWord kind tokens = .ok (answer, rest)) (sound : kind ≠ .error)
    (inside : kind ≠ .endOfInput) : tokens.map Token.kind = kind :: rest.map Token.kind := by
  rw [expectWord_eq_ok sound inside] at taken
  obtain ⟨token, later, rfl, rfl, behind⟩ := taken_cons.mp taken
  obtain rfl := taken_nil.mp behind
  rfl

theorem kinds_of_table {name : String} (taken : table tokens = .ok (name, rest)) :
    tokens.map Token.kind = .name :: rest.map Token.kind := by
  rw [(expect_eq_ok (by decide) (by decide)).mp taken]
  rfl

theorem kinds_of_items {read : Token → Except CommandError α} {item : Token.Kind → Prop}
    {answers : List α} (seeks : Seeks read item)
    (taken : items read tokens = .ok (answers, rest)) :
    ∃ kinds, Sentence.Closed item answers.length kinds ∧
      tokens.map Token.kind = kinds ++ rest.map Token.kind := by
  induction answers generalizing tokens with
  | nil =>
      obtain ⟨token, separator, later, rfl⟩ := two_of_items taken
      obtain ⟨answer, -, ⟨-, nothing, -⟩ | ⟨-, others, -, nothing⟩⟩ :=
        items_cons_cons_eq_ok.mp taken
      · nomatch nothing
      · nomatch nothing
  | cons answer others ih =>
      obtain ⟨token, separator, later, rfl⟩ := two_of_items taken
      obtain ⟨_, answered, ⟨isClosed, same, rfl⟩ | ⟨isComma, _, othersTaken, same⟩⟩ :=
        items_cons_cons_eq_ok.mp taken
      · obtain ⟨rfl, rfl⟩ := List.cons.inj same
        refine ⟨[token.kind, .rightParen], .last (seeks.only token answer answered), ?_⟩
        simp [isClosed]
      · obtain ⟨rfl, rfl⟩ := List.cons.inj same
        obtain ⟨kinds, closed, split⟩ := ih othersTaken
        refine ⟨token.kind :: .comma :: kinds, .more (seeks.only token answer answered) closed, ?_⟩
        simp [isComma, split]

end Kinds

section Whole

variable {closing tokens : List Token} (halts : Halts closing)

include halts

/-- A command that was read to its end has the end of the command behind it. -/
theorem goes_finish (command : Command) :
    Goes closing (finish command) .finish (Finished closing) := by
  intro tokens along
  cases along with
  | stop =>
      rcases halts with broken | ended
      · refine ends_of_error ?_ (.reported broken)
        simp [finish, expect, one, Token.textOf, Token.checked, broken, Bind.bind, StateT.bind,
          Except.bind]
      · exact ends_of_ok (finish_eq_ok.mpr ⟨rfl, finishes_nil.mpr ⟨ended, rfl⟩⟩) ended
  | token takes spelled along => exact takes.elim

theorem goes_starred (make : String → Option Entry → Command) :
    Goes closing (do
      expectWord .star
      let (table, filtered) ← tableFilter
      finish (make table filtered) : Reader Command) .allColumns (Finished closing) := by
  apply (goes_word halts .sourceWord fun _ _ => Iff.rfl).bind
  intro _
  exact (goes_tableFilter halts).bind fun found => goes_finish halts _

theorem goes_change : Goes closing change .updateTable (Finished closing) := by
  apply (goes_name halts .setWord rfl (by decide)).bind
  intro table
  apply (goes_word halts .changeColumn fun _ _ => Iff.rfl).bind
  intro _
  apply (goes_entries halts).bind
  intro changes
  exact (goes_filter halts).bind fun filtered => goes_finish halts _

theorem unsubscribe_ends {word : Token} {later : List Token} (isWord : word.kind = .unsubscribe)
    (along : Along closing .sourceWord later) :
    Ends (Finished closing) (Fails closing (word :: later))
      ((do
        expectWord .fromWord
        finish (.unsubscribe (← table)) : Reader Command) later) := by
  apply (goes_word halts .sourceTable fun _ _ => Iff.rfl).followed along
  intro _ afterWord wordTaken along
  apply (goes_name halts .filterWord rfl (by decide)).followed along
  intro name afterTable tableTaken along
  cases along with
  | stop => exact (goes_finish halts _).ends (.stop .finish)
  | @token _ _ filterWord behind takes spelled _ =>
      -- The scan allows a filter here, the grammar of commands does not.
      obtain ⟨isWhere, -⟩ := takes
      have text : filterWord.text = "where" := by
        rw [text_of_isKeyword (by rw [isWhere]; rfl) spelled, isWhere]
        rfl
      have failed : finish (.unsubscribe name) (filterWord :: behind) =
          .error (.unexpected .ending "where") := by
        simp [finish, expect, one, front, Token.textOf, Token.checked, Token.shown,
          Token.isEnding, isWhere, text, Bind.bind, StateT.bind, Except.bind, throw, throwThe,
          MonadExceptOf.throw]
      refine ends_of_error failed (.early (.filtered ⟨behind.map Token.kind, ?_⟩))
      rw [List.map_cons, isWord, kinds_of_expectWord wordTaken (by decide) (by decide),
        kinds_of_table tableTaken, List.map_cons, isWhere]
      rfl

theorem connect_ends {word : Token} {text : String} {later : List Token}
    (isBridge : word.kind = .mysql) (along : Along closing .bridgeAddress later) :
    Ends (Finished closing) (Fails closing (word :: ⟨.connect, text⟩ :: later))
      ((do finish (.bridge (.connect (← expect .value .address))) : Reader Command) later) := by
  cases along with
  | stop =>
      have seeks := seeks_textOf .value .address (by decide) (by decide) (by decide)
      obtain ⟨reason, failed, stops⟩ := seeks.stops halts
      refine ends_of_error ?_ (.stops stops)
      simp [expect, one, failed, Bind.bind, StateT.bind, Except.bind]
  | @token _ next address behind takes spelled along =>
      obtain ⟨kind, address⟩ := address
      obtain ⟨rfl | rfl, rfl⟩ := takes
      · exact (goes_finish halts _).ends along
      · -- The scan takes a quoted address too, the bridge does not.
        obtain ⟨_, bridge⟩ := word
        obtain rfl := isBridge
        change Fails closing _ (.unexpected .address address)
        exact .early (.quoted ⟨behind, rfl⟩)

theorem bridge_ends {word : Token} {later : List Token} (isBridge : word.kind = .mysql)
    (along : Along closing .bridgeWord later) :
    Ends (Finished closing) (Fails closing (word :: later)) (Reader.bridge later) := by
  cases along with
  | stop =>
      rcases halts with broken | ended
      · refine ends_of_error ?_ (.stops (.reported broken))
        simp [Reader.bridge, one, Token.checked, broken, Bind.bind, StateT.bind, Except.bind]
      · refine ends_of_error ?_ (.unnamed rfl isBridge ended)
        simp [Reader.bridge, one, Token.checked, Token.shown, Token.isEnding, ended,
          Token.Kind.spelling, Bind.bind, StateT.bind, Except.bind, pure, Except.pure, throw,
          throwThe, MonadExceptOf.throw, StateT.lift]
  | @token _ next action behind takes spelled along =>
      obtain ⟨kind, text⟩ := action
      have leads : ∀ place, (kind, place) ∈ bridgeWords → next = place :=
        fun place => next_eq_of_findable findable_bridgeWords takes
      have further : next = .finish → ∀ command, Ends (Finished closing)
          (Fails closing (word :: ⟨kind, text⟩ :: behind)) (finish command behind) := by
        rintro rfl command
        exact (goes_finish halts command).ends along
      cases kind with
      | connect =>
          obtain rfl := leads .bridgeAddress (by decide)
          exact connect_ends halts isBridge along
      | disconnect | subscribe | unsubscribe =>
          exact further (leads .finish (by decide)) _
      | _ => simp [Place.goal, Goal.Takes, bridgeWords] at takes

theorem insertion_ends {word : Token} {later : List Token} (isInsert : word.kind = .insert)
    (along : Along closing .intoWord later) :
    Ends (Finished closing) (Fails closing (word :: later)) (insertion later) := by
  have columnSeeks := seeks_textOf .name .column (by decide) (by decide) (by decide)
  apply (goes_word halts .insertTable fun _ _ => Iff.rfl).followed along
  intro _ afterInto intoTaken along
  apply (goes_name halts .columnsOpen rfl (by decide)).followed along
  intro table afterTable tableTaken along
  apply (goes_word halts .column fun _ _ => Iff.rfl).followed along
  intro _ afterOpen openTaken along
  apply (goes_items halts .valuesWord columnSeeks (fun _ _ => id) rfl).followed along
  intro columns afterColumns columnsTaken along
  apply (goes_word halts .valuesOpen fun _ _ => Iff.rfl).followed along
  intro _ afterWord wordTaken along
  apply (goes_word halts .rowValue fun _ _ => Iff.rfl).followed along
  intro _ afterValuesOpen valuesOpenTaken along
  apply (goes_items halts .finish seeks_valueText (fun _ _ => id) rfl).followed along
  intro values afterValues valuesTaken along
  by_cases sameLength : columns.length = values.length
  · rw [if_neg (not_not.mpr sameLength)]
    exact (goes_finish halts _).ends along
  · rw [if_pos sameLength]
    obtain ⟨columnKinds, columnsClosed, columnsSplit⟩ := kinds_of_items columnSeeks columnsTaken
    obtain ⟨valueKinds, valuesClosed, valuesSplit⟩ := kinds_of_items seeks_valueText valuesTaken
    change Fails closing _ (.valueCount columns.length values.length)
    refine .early (.miscounted ?_ columnsClosed valuesClosed sameLength)
    refine ⟨afterValues.map Token.kind, ?_⟩
    rw [List.map_cons, isInsert, kinds_of_expectWord intoTaken (by decide) (by decide),
      kinds_of_table tableTaken, kinds_of_expectWord openTaken (by decide) (by decide),
      columnsSplit, kinds_of_expectWord wordTaken (by decide) (by decide),
      kinds_of_expectWord valuesOpenTaken (by decide) (by decide), valuesSplit]
    simp

/-- The tokens of a scan are read as a command, or one of the known reasons is given. -/
theorem command_ends (along : Along closing .start tokens)
    (begun : (front closing).kind = .endOfInput → tokens ≠ closing) :
    Ends (Finished closing) (Fails closing tokens) (Reader.command tokens) := by
  cases along with
  | stop =>
      rcases halts with broken | ended
      · refine ends_of_error ?_ (.stops (.reported broken))
        simp [Reader.command, one, Token.checked, broken, Bind.bind, StateT.bind, Except.bind]
      · exact (begun ended rfl).elim
  | @token _ next word later takes spelled along =>
      obtain ⟨kind, text⟩ := word
      have leads : ∀ place, (kind, place) ∈ commandWords → next = place :=
        fun place => next_eq_of_findable findable_commandWords takes
      have finishes : next = .finish → ∀ command, Ends (Finished closing)
          (Fails closing (⟨kind, text⟩ :: later)) (finish command later) := by
        rintro rfl command
        exact (goes_finish halts command).ends along
      cases kind with
      | help | status | stop | start =>
          exact finishes (leads .finish (by decide)) _
      | select =>
          obtain rfl := leads .allColumns (by decide)
          exact (goes_starred halts .select).ends along
      | subscribe =>
          obtain rfl := leads .allColumns (by decide)
          exact (goes_starred halts .subscribe).ends along
      | unsubscribe =>
          obtain rfl := leads .sourceWord (by decide)
          exact unsubscribe_ends halts rfl along
      | insert =>
          obtain rfl := leads .intoWord (by decide)
          exact insertion_ends halts rfl along
      | update =>
          obtain rfl := leads .updateTable (by decide)
          exact (goes_change halts).ends along
      | delete =>
          obtain rfl := leads .sourceWord (by decide)
          have goes := (goes_tableFilter halts).bind fun found =>
            goes_finish halts (.delete found.1 found.2)
          exact goes.ends along
      | mysql =>
          obtain rfl := leads .bridgeWord (by decide)
          exact bridge_ends halts rfl along
      | _ => simp [Place.goal, Goal.Takes, commandWords] at takes

end Whole

end Reader

end TableFeed
