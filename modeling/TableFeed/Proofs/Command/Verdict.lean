import TableFeed.Outcome
import TableFeed.Proofs.Command.Stops
import TableFeed.Proofs.Command.Tokens
import TableFeed.Proofs.Scan.Course

/-!
# How the tokens of a text decide its outcome

The tokens of a text are found without the grammar of commands, and the grammar never looks at the
text. The main statement says that they agree on what is wrong: the tokens alone decide the outcome,
and a fault in the text is the reason to refuse it, except where the grammar has another reason
before it gets there.
-/

namespace TableFeed

/-- The tokens of an outcome decide its result. The first reason that applies is given: what makes
the first few tokens useless, then a fault, then a bridge without a word behind its name, and then
that the tokens in front of the end are no sentence. All other tokens stand for a command. -/
structure Outcome.Settled (outcome : Outcome) : Prop where
  ended : outcome.tokens.getLast? = some .ending
  early : ∀ reason, Early outcome.tokens reason → outcome.result = .error reason
  lexical : (∀ reason, ¬ Early outcome.tokens reason) →
    ∀ token ∈ outcome.tokens, token.kind = .error →
      outcome.result = .error (.lexical token.text)
  unnamed : outcome.tokens.map Token.kind = [.mysql, .endOfInput] →
    outcome.result = .error (.noBridgeAction "EOF")
  unfinished : (∀ reason, ¬ Early outcome.tokens reason) →
    (∀ token ∈ outcome.tokens, token.kind ≠ .error) →
    outcome.tokens.map Token.kind ≠ [.mysql, .endOfInput] →
    ¬ Sentence (outcome.tokens.dropLast.map Token.kind) →
      ∃ expected, outcome.result = .error (.unexpected expected "EOF")
  accepted : Sentence (outcome.tokens.dropLast.map Token.kind) →
    ∃ command : Command, outcome.result = .ok command ∧
      List.Forall₂ Part.Fits command.parts outcome.tokens.dropLast
  sound : ∀ command, outcome.result = .ok command →
    ∀ token ∈ outcome.tokens, token.kind ≠ .error
  found : ∀ expected found, outcome.result = .error (.unexpected expected found) →
    found = "EOF" ∨ Early outcome.tokens (.unexpected expected found)
  begun : ∀ found, outcome.result ≠ .error (.unexpected .command found)

namespace Reader

section Early

variable {α : Type} {read : Token → Except CommandError α} {item : Token.Kind → Prop}
variable {tokens : List Token} {reason : CommandError}

theorem exists_of_kinds {kind : Token.Kind} {kinds : List Token.Kind}
    (split : tokens.map Token.kind = kind :: kinds) :
    ∃ text later, tokens = ⟨kind, text⟩ :: later ∧ later.map Token.kind = kinds := by
  obtain ⟨⟨_, text⟩, later, same, isKind, others⟩ := List.map_eq_cons_iff.mp split
  obtain rfl := isKind
  exact ⟨text, later, same, others⟩

theorem items_of_closed {count : Nat} {kinds behind : List Token.Kind} (seeks : Seeks read item)
    (closed : Sentence.Closed item count kinds) (split : tokens.map Token.kind = kinds ++ behind) :
    ∃ answers rest, items read tokens = .ok (answers, rest) ∧ answers.length = count ∧
      rest.map Token.kind = behind := by
  induction closed generalizing tokens with
  | @last kind isItem =>
      obtain ⟨text, _, rfl, afterItem⟩ := exists_of_kinds split
      obtain ⟨closing, later, rfl, afterClosed⟩ := exists_of_kinds afterItem
      obtain ⟨answer, answered⟩ := seeks.reads ⟨kind, text⟩ isItem
      have taken : items read (⟨kind, text⟩ :: ⟨.rightParen, closing⟩ :: later) =
          .ok ([answer], later) :=
        items_cons_cons_eq_ok.mpr ⟨answer, answered, Or.inl ⟨rfl, rfl, rfl⟩⟩
      exact ⟨[answer], later, taken, rfl, afterClosed⟩
  | @more kind count others isItem closed ih =>
      obtain ⟨text, _, rfl, afterItem⟩ := exists_of_kinds split
      obtain ⟨comma, later, rfl, afterComma⟩ := exists_of_kinds afterItem
      obtain ⟨answer, answered⟩ := seeks.reads ⟨kind, text⟩ isItem
      obtain ⟨answers, rest, othersTaken, number, afterOthers⟩ := ih afterComma
      have taken : items read (⟨kind, text⟩ :: ⟨.comma, comma⟩ :: later) =
          .ok (answer :: answers, rest) :=
        items_cons_cons_eq_ok.mpr
          ⟨answer, answered, Or.inr ⟨rfl, answers, othersTaken, rfl⟩⟩
      exact ⟨answer :: answers, rest, taken, congrArg Nat.succ number, afterOthers⟩

theorem expectWord_cons (kind : Token.Kind) (text : String) (later : List Token)
    (sound : kind ≠ .error) : expectWord kind (⟨kind, text⟩ :: later) = .ok ((), later) := by
  have taken : expect kind (.token kind) (⟨kind, text⟩ :: later) = .ok (text, later) :=
    one_eq_ok.mpr ⟨(Token.textOf_eq_ok sound).mpr rfl, rfl⟩
  rw [expectWord, bind_of_ok taken]
  rfl

theorem ofTokens_of_unnamed (kinds : tokens.map Token.kind = [.mysql, .endOfInput]) :
    Command.ofTokens tokens = .error (.noBridgeAction "EOF") := by
  obtain ⟨_, _, rfl, afterBridge⟩ := exists_of_kinds kinds
  obtain ⟨_, _, rfl, nothing⟩ := exists_of_kinds afterBridge
  obtain rfl := List.map_eq_nil_iff.mp nothing
  rfl

theorem ofTokens_of_error (failed : Reader.command tokens = .error reason) :
    Command.ofTokens tokens = .error reason := by
  simp [Command.ofTokens, StateT.run', failed, Functor.map, Except.map]

/-- The reasons to refuse tokens whatever stands behind the first few of them are the reasons that
are given. -/
theorem ofTokens_of_early (early : Early tokens reason)
    (spelled : ∀ token ∈ tokens, token.kind = .whereWord → token.text = "where") :
    Command.ofTokens tokens = .error reason := by
  cases early with
  | filtered begins =>
      obtain ⟨behind, split⟩ := begins
      obtain ⟨_, _, rfl, afterUnsubscribe⟩ := exists_of_kinds split.symm
      obtain ⟨_, _, rfl, afterFrom⟩ := exists_of_kinds afterUnsubscribe
      obtain ⟨_, _, rfl, afterTable⟩ := exists_of_kinds afterFrom
      obtain ⟨text, _, rfl, -⟩ := exists_of_kinds afterTable
      obtain rfl : text = "where" := spelled ⟨.whereWord, text⟩ (by simp) rfl
      rfl
  | quoted begins =>
      obtain ⟨behind, rfl⟩ := begins
      rfl
  | @miscounted columnKinds valueKinds columns values begins columnsClosed valuesClosed differ =>
      obtain ⟨behind, split⟩ := begins
      simp only [List.append_assoc, List.cons_append, List.nil_append] at split
      obtain ⟨insert, _, rfl, afterInsert⟩ := exists_of_kinds split.symm
      obtain ⟨into, _, rfl, afterInto⟩ := exists_of_kinds afterInsert
      obtain ⟨table, _, rfl, afterTable⟩ := exists_of_kinds afterInto
      obtain ⟨opening, columnTokens, rfl, afterOpening⟩ := exists_of_kinds afterTable
      have columnSeeks := seeks_textOf .name .column (by decide) (by decide) (by decide)
      obtain ⟨columnsFound, _, columnsTaken, rfl, afterColumns⟩ :=
        items_of_closed columnSeeks columnsClosed afterOpening
      obtain ⟨word, _, rfl, afterWord⟩ := exists_of_kinds afterColumns
      obtain ⟨valuesOpening, valueTokens, rfl, afterValuesOpening⟩ := exists_of_kinds afterWord
      obtain ⟨valuesFound, _, valuesTaken, rfl, -⟩ :=
        items_of_closed seeks_valueText valuesClosed afterValuesOpening
      have tableTaken : Reader.table (⟨.name, table⟩ :: ⟨.leftParen, opening⟩ :: columnTokens) =
          .ok (table, ⟨.leftParen, opening⟩ :: columnTokens) :=
        (expect_eq_ok (by decide) (by decide)).mpr rfl
      have refused : insertion (⟨.into, into⟩ :: ⟨.name, table⟩ :: ⟨.leftParen, opening⟩ ::
          columnTokens) = .error (.valueCount columnsFound.length valuesFound.length) := by
        rw [insertion, bind_of_ok (expectWord_cons .into into _ (by decide)), bind_of_ok tableTaken,
          bind_of_ok (expectWord_cons .leftParen opening _ (by decide)), bind_of_ok columnsTaken,
          bind_of_ok (expectWord_cons .values word _ (by decide)),
          bind_of_ok (expectWord_cons .leftParen valuesOpening _ (by decide)),
          bind_of_ok valuesTaken, if_pos differ]
        rfl
      exact ofTokens_of_error refused

/-- The lists of an insertion are counted before the fault behind them is met. -/
example : Command.ofTokens [⟨.insert, "insert"⟩, ⟨.into, "into"⟩, ⟨.name, "t"⟩, ⟨.leftParen, "("⟩,
    ⟨.name, "a"⟩, ⟨.rightParen, ")"⟩, ⟨.values, "values"⟩, ⟨.leftParen, "("⟩, ⟨.value, "1"⟩,
    ⟨.comma, ","⟩, ⟨.value, "2"⟩, ⟨.rightParen, ")"⟩, ⟨.error, "Unexpected token: ?"⟩, .ending] =
      .error (.valueCount 1 2) :=
  rfl

end Early

end Reader

namespace Command

open Reader

variable {tokens words closing : List Token} {command : Command} {place last : Place}

theorem ofTokens_ends (halts : Halts closing) (along : Along closing .start tokens)
    (begun : (front closing).kind = .endOfInput → tokens ≠ closing) :
    (∀ command, ofTokens tokens = .ok command → (front closing).kind = .endOfInput) ∧
      ∀ reason, ofTokens tokens = .error reason → Fails closing tokens reason := by
  have ends := command_ends halts along begun
  unfold ofTokens StateT.run'
  cases result : Reader.command tokens with
  | error reason =>
      rw [result] at ends
      refine ⟨nofun, ?_⟩
      rintro _ ⟨⟩
      exact ends
  | ok found =>
      rw [result] at ends
      exact ⟨fun _ _ => ends, nofun⟩

theorem exists_of_sentence (ended : tokens.getLast? = some .ending)
    (sentence : Sentence (tokens.dropLast.map Token.kind)) :
    ∃ command : Command, ofTokens tokens = .ok command ∧
      List.Forall₂ Part.Fits command.parts tokens.dropLast := by
  obtain ⟨command, nonempty, fits⟩ := exists_command sentence rfl
  have whole := List.dropLast_append_getLast? _ ended
  exact ⟨command, ofTokens_eq_ok.mpr ⟨nonempty, [.ending], ⟨_, whole.symm, fits⟩, rfl⟩, fits⟩

/-- The tokens in front of the end of an accepted command are those that say its parts. -/
theorem sentence_of_ok (inside : ∀ token ∈ words, token.kind ≠ .endOfInput)
    (accepted : ofTokens (words ++ [.ending]) = .ok command) :
    Sentence (words.map Token.kind) := by
  have said := ofTokens_eq_ok_iff_saidBy.mp accepted
  rw [Token.beforeEnding_append inside rfl] at said
  exact said.sentence

end Command

theorem Reader.Fails.unexpected {tokens closing : List Token} {expected : Expected} {found : String}
    (fails : Reader.Fails closing tokens (.unexpected expected found)) :
    expected ≠ .command ∧ (found = "EOF" ∨ Early tokens (.unexpected expected found)) := by
  cases fails with
  | stops stops =>
      cases stops with
      | ended ended begun => exact ⟨begun, Or.inl rfl⟩
  | early early =>
      refine ⟨?_, Or.inr early⟩
      cases early <;> decide

namespace Outcome

open Reader

variable {words closing : List Token} {last : Place}

theorem text_where (closing : List Token)
    (spellings : ∀ token ∈ words, token.kind.Spelling token.text.toList)
    (others : ∀ token ∈ closing, token.kind ≠ .whereWord) :
    ∀ token ∈ words ++ closing, token.kind = .whereWord → token.text = "where" := by
  intro token member isWhere
  rcases List.mem_append.mp member with inside | behind
  · rw [text_of_isKeyword (by rw [isWhere]; rfl) (spellings token inside), isWhere]
    rfl
  · exact (others token behind isWhere).elim

/-- A fault in a text is why the text is refused, unless its tokens are refused early. -/
theorem settled_of_fault {message : String}
    (leads : Place.start.Leads (words.map Token.kind) last)
    (spellings : ∀ token ∈ words, token.kind.Spelling token.text.toList) :
    Settled ⟨words ++ [⟨.error, message⟩, .ending],
      Command.ofTokens (words ++ [⟨.error, message⟩, .ending])⟩ := by
  have halts : Halts [⟨.error, message⟩, .ending] := Or.inl rfl
  have along := along_of_leads [⟨.error, message⟩, .ending] leads spellings
  have texts := text_where [⟨.error, message⟩, .ending] spellings (by simp [Token.ending])
  have ends := Command.ofTokens_ends halts along fun ended => by cases ended
  generalize split : words ++ [⟨.error, message⟩, Token.ending] = tokens at along texts ends ⊢
  obtain ⟨neverOk, fails⟩ := ends
  have ended : tokens.getLast? = some .ending := by simp [← split]
  have broken : ⟨.error, message⟩ ∈ tokens := by simp [← split]
  have onlyFault : ∀ token ∈ tokens, token.kind = .error → token = ⟨.error, message⟩ := by
    intro token member isError
    rw [← split, List.mem_append, List.mem_cons, List.mem_singleton] at member
    rcases member with inside | rfl | rfl
    · exact ((leads.isToken token.kind (List.mem_map_of_mem inside)).2 isError).elim
    · rfl
    · cases isError
  have lexical : (∀ reason, ¬ Early tokens reason) →
      Command.ofTokens tokens = .error (.lexical message) := by
    intro noEarly
    cases result : Command.ofTokens tokens with
    | ok command => cases neverOk command result
    | error reason =>
        cases fails reason result with
        | stops stops =>
            cases stops with
            | reported broken => rfl
            | ended ended begun => cases ended
        | early early => exact (noEarly reason early).elim
        | unnamed same isBridge ended => cases ended
  constructor
  case ended => exact ended
  case early => exact fun reason early => ofTokens_of_early early texts
  case lexical =>
    intro noEarly token member isError
    rw [lexical noEarly, onlyFault token member isError]
  case unnamed => exact ofTokens_of_unnamed
  case unfinished =>
    intro _ noFault
    exact (noFault _ broken rfl).elim
  case accepted => exact Command.exists_of_sentence ended
  case sound =>
    intro command accepted
    cases neverOk command accepted
  case found => exact fun expected found refused => (fails _ refused).unexpected.2
  case begun => exact fun found refused => (fails _ refused).unexpected.1 rfl

/-- A text without a fault is refused at its end, unless its tokens are refused early. -/
theorem settled_of_exhausted (leads : Place.start.Leads (words.map Token.kind) last)
    (begun : last ≠ .start)
    (spellings : ∀ token ∈ words, token.kind.Spelling token.text.toList) :
    Settled ⟨words ++ [.ending], Command.ofTokens (words ++ [.ending])⟩ := by
  have halts : Halts [.ending] := Or.inr rfl
  have along := along_of_leads [.ending] leads spellings
  have texts := text_where [.ending] spellings (by simp [Token.ending])
  have inside : ∀ token ∈ words, token.kind ≠ .endOfInput ∧ token.kind ≠ .error :=
    fun token member => leads.isToken token.kind (List.mem_map_of_mem member)
  have occupied : words ++ [.ending] ≠ [.ending] := by
    intro same
    obtain rfl : words = [] := by simpa using same
    exact begun leads.symm
  obtain ⟨-, fails⟩ := Command.ofTokens_ends halts along fun _ => occupied
  have ended : (words ++ [Token.ending]).getLast? = some .ending := by simp
  have noFault : ∀ token ∈ words ++ [.ending], token.kind ≠ .error := by
    refine List.forall_mem_append.mpr ⟨fun token member => (inside token member).2, ?_⟩
    exact List.forall_mem_singleton.mpr (by decide)
  constructor
  case ended => exact ended
  case early => exact fun reason early => ofTokens_of_early early texts
  case lexical => exact fun _ token member isError => (noFault token member isError).elim
  case unnamed => exact ofTokens_of_unnamed
  case unfinished =>
    intro noEarly _ named noSentence
    cases result : Command.ofTokens (words ++ [.ending]) with
    | ok command =>
        have sentence := Command.sentence_of_ok (fun token member => (inside token member).1) result
        rw [List.dropLast_concat] at noSentence
        exact (noSentence sentence).elim
    | error reason =>
        cases fails reason result with
        | stops stops =>
            cases stops with
            | reported broken => cases broken
            | ended ended begun => exact ⟨_, rfl⟩
        | early early => exact (noEarly reason early).elim
        | unnamed same isBridge ended =>
            refine (named ?_).elim
            rw [same, List.map_cons, isBridge]
            rfl
  case accepted => exact Command.exists_of_sentence ended
  case sound => exact fun command _ => noFault
  case found => exact fun expected found refused => (fails _ refused).unexpected.2
  case begun => exact fun found refused => (fails _ refused).unexpected.1 rfl

/-- The tokens of a text decide its outcome. -/
theorem settled_ofText (text : String) : (ofText text).Settled := by
  have course : Course .start 0 text.toList (scan text) :=
    Scanner.course_of_reading .start (.atStart text)
  obtain ⟨taken, last, closing, whole, leads, spellings, closes⟩ := course.leads
  have scanned : ofText text =
      ⟨taken.map PlacedToken.token ++ closing.map PlacedToken.token,
        Command.ofTokens (taken.map PlacedToken.token ++ closing.map PlacedToken.token)⟩ := by
    rw [ofText, Command.parse, tokensOf, whole, List.map_append]
  have words : Place.start.Leads ((taken.map PlacedToken.token).map Token.kind) last := by
    rwa [List.map_map]
  have spelled : ∀ token ∈ taken.map PlacedToken.token,
      token.kind.Spelling token.text.toList :=
    List.forall_mem_map.mpr spellings
  rw [scanned]
  cases closes with
  | fault stop => exact settled_of_fault words spelled
  | exhausted begun stop => exact settled_of_exhausted words begun spelled

end Outcome

end TableFeed
