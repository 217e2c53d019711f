import TableFeed.Proofs.Command.Parsing
import TableFeed.Proofs.Command.Stops

/-!
# How far a list of tokens is looked at

A reader looks at no token behind the end of the command and at none behind a fault. So the tokens
in front of these either fix the answer on their own, or the answer waits for the first token behind
them. The main statement says what this means for a whole command. At its end the answer is the one
that is given without anything behind. At a fault the command is refused, because of the fault or
because of what the tokens in front of it have already fixed.
-/

namespace TableFeed

/-- The reasons that show the end of the command as what was found. -/
inductive CommandError.ShowsEnding : CommandError → Prop
  | unexpected (expected : Expected) : ShowsEnding (.unexpected expected "EOF")
  | noBridgeAction : ShowsEnding (.noBridgeAction "EOF")

/-- What some tokens decide about a command, whatever stands behind them. An end of the command
behind them adds nothing. A fault behind them is the reason to refuse the command, unless they are
refused for a reason of their own. -/
structure Command.Decides (front : List Token) : Prop where
  ended : ∀ text later, ofTokens (front ++ ⟨.endOfInput, text⟩ :: later) = ofTokens front
  shown : ∀ reason, ofTokens front = .error reason →
    reason.ShowsEnding ∨ ∀ rest, ofTokens (front ++ rest) = .error reason
  broken : (∀ token ∈ front, token.kind ≠ .endOfInput ∧ token.kind ≠ .error) →
    ∀ message later, ∃ reason,
      ofTokens (front ++ ⟨.error, message⟩ :: later) = .error reason ∧
        (reason = .lexical message ∨ ∀ rest, ofTokens (front ++ rest) = .error reason)

namespace Reader

/-- A fault is reported when it is read, and at the end of the command something is missing. -/
structure Minds {α : Type} (read : Token → Except CommandError α) : Prop where
  reports : ∀ token, token.kind = .error → read token = .error (.lexical token.text)
  misses : ∃ missing : CommandError, missing.ShowsEnding ∧
    ∀ token, token.kind = .endOfInput → read token = .error missing

/-- A reader reports a fault in front of it, and it treats every end of the command alike. -/
structure Rests (reader : Reader Command) : Prop where
  reports : ∀ closing, (front closing).kind = .error →
    StateT.run' reader closing = .error (.lexical (front closing).text)
  ends : ∃ verdict : Except CommandError Command,
    (∀ reason, verdict = .error reason → reason.ShowsEnding) ∧
      ∀ closing, (front closing).kind = .endOfInput → StateT.run' reader closing = verdict

/-- What a reader makes of some tokens: they fix its answer whatever stands behind them, or the
answer is that of a reader which looks at what stands behind them first. -/
inductive Concludes (reader : Reader Command) (tokens : List Token) : Prop
  | fixed (answer : Except CommandError Command)
      (fixed : ∀ rest, StateT.run' reader (tokens ++ rest) = answer)
  | rests {other : Reader Command} (rests : Rests other)
      (same : ∀ closing, Halts closing → reader (tokens ++ closing) = other closing)

section Minds

theorem minds_textOf (kind : Token.Kind) (expected : Expected) (inside : kind ≠ .endOfInput) :
    Minds (Token.textOf kind expected) where
  reports := by
    rintro ⟨_, text⟩ rfl
    rfl
  misses := by
    refine ⟨.unexpected expected "EOF", .unexpected expected, ?_⟩
    rintro ⟨_, text⟩ rfl
    exact if_neg inside.symm

theorem minds_valueText : Minds Token.valueText where
  reports := by
    rintro ⟨_, text⟩ rfl
    rfl
  misses := by
    refine ⟨.unexpected .value "EOF", .unexpected .value, ?_⟩
    rintro ⟨_, text⟩ rfl
    rfl

end Minds

section Concludes

variable {α : Type} {read : Token → Except CommandError α} {second : α → Reader Command}
variable {reader other : Reader Command} {tokens others : List Token} {reason : CommandError}

theorem run'_congr (same : reader tokens = other others) :
    StateT.run' reader tokens = StateT.run' other others := by
  simp only [StateT.run', same]

theorem run'_of_error (failed : reader tokens = .error reason) :
    StateT.run' reader tokens = .error reason := by
  simp [StateT.run', failed, Functor.map, Except.map]

theorem one_of_error {first : List Token} (failed : read (front first) = .error reason) :
    one read first = .error reason := by
  simp only [one, failed]
  rfl

theorem bind_of_error {first : Reader α} (failed : first tokens = .error reason) :
    (first >>= second) tokens = .error reason := by
  simp [bind, StateT.bind, Except.bind, failed]

theorem bind_congr {first start : Reader α} (same : first tokens = start tokens) :
    (first >>= second) tokens = (start >>= second) tokens := by
  simp [bind, StateT.bind, Except.bind, same]

theorem concludes_of_error (failed : ∀ rest, reader (tokens ++ rest) = .error reason) :
    Concludes reader tokens :=
  .fixed (.error reason) fun rest => run'_of_error (failed rest)

/-- A reader concludes where another one concludes that goes on with the same answer. -/
theorem Concludes.congr (concludes : Concludes other others)
    (same : ∀ rest, reader (tokens ++ rest) = other (others ++ rest)) :
    Concludes reader tokens := by
  cases concludes with
  | fixed answer fixed =>
      exact .fixed answer fun rest => (run'_congr (same rest)).trans (fixed rest)
  | rests rests waits =>
      exact .rests rests fun closing halted => (same closing).trans (waits closing halted)

theorem Rests.concludes (rests : Rests reader) : Concludes reader [] :=
  .rests rests fun _ _ => rfl

theorem Rests.congr (rests : Rests other)
    (same : ∀ closing, Halts closing → reader closing = other closing) : Rests reader where
  reports := by
    intro closing broken
    rw [run'_congr (same closing (Or.inl broken))]
    exact rests.reports closing broken
  ends := by
    obtain ⟨verdict, shows, ends⟩ := rests.ends
    refine ⟨verdict, shows, ?_⟩
    intro closing ended
    rw [run'_congr (same closing (Or.inr ended))]
    exact ends closing ended

theorem Minds.rests (minds : Minds read) : Rests (one read >>= second) where
  reports := by
    intro closing broken
    exact run'_of_error (bind_of_error (one_of_error (minds.reports _ broken)))
  ends := by
    obtain ⟨missing, shows, misses⟩ := minds.misses
    refine ⟨.error missing, ?_, ?_⟩
    · rintro _ ⟨⟩
      exact shows
    · intro closing ended
      exact run'_of_error (bind_of_error (one_of_error (misses _ ended)))

/-- One token is taken, so fewer of them are left for what is read behind it. -/
theorem Minds.concludes (minds : Minds read)
    (further : ∀ answer behind, behind.length < tokens.length → Concludes (second answer) behind) :
    Concludes (one read >>= second) tokens := by
  cases tokens with
  | nil => exact minds.rests.concludes
  | cons token later =>
      cases found : read token with
      | error reason =>
          have failed : ∀ rest, one read (token :: later ++ rest) = .error reason :=
            fun rest => one_of_error found
          exact concludes_of_error fun rest => bind_of_error (failed rest)
      | ok answer =>
          apply (further answer later (Nat.lt_succ_self _)).congr
          intro rest
          apply bind_of_ok
          rw [List.cons_append, one_eq_ok]
          exact ⟨found, rfl⟩

end Concludes

section Readers

variable {α : Type} {read : Token → Except CommandError α} {tokens : List Token}

theorem concludes_name {expected : Expected} {second : String → Reader Command}
    (further : ∀ name behind, behind.length < tokens.length → Concludes (second name) behind) :
    Concludes (expect .name expected >>= second) tokens :=
  (minds_textOf .name expected (by decide)).concludes further

theorem concludes_word {kind : Token.Kind} {second : Unit → Reader Command}
    (inside : kind ≠ .endOfInput)
    (further : ∀ behind, behind.length < tokens.length → Concludes (second ()) behind) :
    Concludes (expectWord kind >>= second) tokens := by
  simp only [expectWord, bind_assoc, pure_bind]
  exact (minds_textOf kind (.token kind) inside).concludes fun _ => further

theorem concludes_entry {second : Entry → Reader Command}
    (further : ∀ entry behind, behind.length < tokens.length → Concludes (second entry) behind) :
    Concludes (entry >>= second) tokens := by
  simp only [entry, bind_assoc, pure_bind]
  apply concludes_name
  intro column afterColumn shorter
  apply concludes_word (by decide)
  intro afterEqual shorterStill
  apply minds_valueText.concludes
  intro value behind last
  exact further _ behind (by omega)

theorem rests_filter {second : Option Entry → Reader Command} (rests : Rests (second none)) :
    Rests (filter >>= second) := by
  apply rests.congr
  intro closing halted
  have noWord := halted.kind_ne .whereWord (by decide) (by decide)
  exact bind_of_ok (filter_eq_ok.mpr ⟨taken_nil.mpr rfl, fun _ => noWord⟩)

/-- A filter may be missing where its word could still stand, so the answer waits there. -/
theorem concludes_filter {second : Option Entry → Reader Command}
    (further : ∀ filtered behind, Concludes (second filtered) behind)
    (rests : Rests (second none)) : Concludes (filter >>= second) tokens := by
  cases tokens with
  | nil => exact (rests_filter rests).concludes
  | cons token later =>
      by_cases word : token.kind = .whereWord
      · have concludes : Concludes (do
            expectWord .whereWord
            let found ← entry
            second (some found)) (token :: later) := by
          apply concludes_word (by decide)
          intro afterWord shorter
          exact concludes_entry fun found behind _ => further (some found) behind
        apply concludes.congr
        intro rest
        have begins : filter (token :: (later ++ rest)) = (do
            expectWord .whereWord
            return some (← entry) : Reader (Option Entry)) (token :: (later ++ rest)) := by
          simp [filter, nextKind, front, word, bind, StateT.bind, Except.bind]
        simp only [List.cons_append, bind_congr begins, bind_assoc, pure_bind]
      · apply (further none (token :: later)).congr
        intro rest
        apply bind_of_ok
        exact filter_eq_ok.mpr ⟨taken_nil.mpr rfl, fun _ => word⟩

/-- Whether a token separates an item from another one, or closes the items. -/
def continues (token : Token) : Except CommandError Bool := do
  let token ← token.checked
  match token.kind with
  | .comma => pure true
  | .rightParen => pure false
  | _ => throw (.unexpected .separator token.shown)

theorem minds_continues : Minds continues where
  reports := by
    rintro ⟨_, text⟩ rfl
    rfl
  misses := by
    refine ⟨.unexpected .separator "EOF", .unexpected .separator, ?_⟩
    rintro ⟨_, text⟩ rfl
    rfl

/-- Items are an item, and other items behind it if a comma comes next. -/
theorem items_eq : items read = (do
    let first ← one read
    if ← one continues then
      let others ← items read
      return first :: others
    else return [first] : Reader (List α)) := by
  have ended : continues .ending = .error (.unexpected .separator Token.ending.shown) := rfl
  have returned : ∀ (answers : List α) rest,
      (StateT.pure answers : Reader (List α)) rest = .ok (answers, rest) := fun _ _ => rfl
  funext tokens
  rcases tokens with _ | ⟨token, _ | ⟨separator, later⟩⟩
  · cases found : read .ending <;>
      simp [items, one, front, found, ended, bind, StateT.bind, Except.bind, pure, Except.pure,
        throw, throwThe, MonadExceptOf.throw]
  · cases found : read token <;>
      simp [items, one, front, found, ended, bind, StateT.bind, Except.bind, pure, Except.pure,
        throw, throwThe, MonadExceptOf.throw]
  · obtain ⟨kind, text⟩ := separator
    cases found : read token with
    | error reason => simp [items, one, front, found, bind, StateT.bind, Except.bind]
    | ok first =>
        cases kind <;>
          simp [items, one, front, found, continues, Token.checked, bind, StateT.bind, Except.bind,
            returned, pure, Except.pure, throw, throwThe, MonadExceptOf.throw]

/-- Items are taken up to the parenthesis behind them. -/
theorem concludes_items (minds : Minds read) {second : List α → Reader Command}
    (further : ∀ answers behind, Concludes (second answers) behind) :
    Concludes (items read >>= second) tokens := by
  induction length : tokens.length using Nat.strong_induction_on generalizing tokens second with
  | _ count ih =>
      rw [items_eq, bind_assoc]
      apply minds.concludes
      intro first afterFirst shorter
      rw [bind_assoc]
      apply minds_continues.concludes
      intro more behind shorterStill
      cases more with
      | false =>
          rw [if_neg (by decide), pure_bind]
          exact further [first] behind
      | true =>
          rw [if_pos rfl, bind_assoc]
          refine ih behind.length (by omega) ?_ rfl
          intro others rest
          rw [pure_bind]
          exact further (first :: others) rest

/-- What is read behind an entry: other entries if there is a comma, and nothing otherwise. -/
def moreEntries (first : Entry) : Reader (List Entry) := fun tokens =>
  if (front tokens).kind = .comma then do
    let (others, rest) ← entries tokens.tail
    return (first :: others, rest)
  else .ok ([first], tokens)

theorem entries_eq : entries = (entry >>= moreEntries) := by
  funext tokens
  rw [entries]
  split
  · rename_i failed
    simp [bind, StateT.bind, Except.bind, failed]
  · rename_i first text later taken
    simp [bind, StateT.bind, Except.bind, taken, moreEntries, front]
  · rename_i first rest noComma taken
    have other : (front rest).kind ≠ .comma := by
      intro comma
      cases rest with
      | nil => cases comma
      | cons token later => exact noComma token.text later (by rw [← comma]; rfl)
    simp [bind, StateT.bind, Except.bind, taken, moreEntries, other]

theorem moreEntries_of_comma {first : Entry} {comma : Token} {later : List Token}
    (isComma : comma.kind = .comma) {second : List Entry → Reader Command} :
    (moreEntries first >>= second) (comma :: later) =
      (entries >>= fun others => second (first :: others)) later := by
  cases taken : entries later <;>
    simp [moreEntries, front, isComma, taken, bind, StateT.bind, Except.bind, pure, Except.pure]

theorem moreEntries_of_other {first : Entry} (other : (front tokens).kind ≠ .comma)
    {second : List Entry → Reader Command} :
    (moreEntries first >>= second) tokens = second [first] tokens := by
  simp [moreEntries, other, bind, StateT.bind, Except.bind]

/-- Behind an entry a comma may be missing, so the answer waits there. -/
theorem concludes_entries {second : List Entry → Reader Command}
    (further : ∀ found behind, Concludes (second found) behind)
    (rests : ∀ found, Rests (second found)) : Concludes (entries >>= second) tokens := by
  induction length : tokens.length using Nat.strong_induction_on generalizing tokens second with
  | _ count ih =>
      rw [entries_eq, bind_assoc]
      apply concludes_entry
      intro first behind shorter
      cases behind with
      | nil =>
          apply Rests.concludes
          apply (rests [first]).congr
          intro closing halted
          exact moreEntries_of_other (halted.kind_ne .comma (by decide) (by decide))
      | cons token later =>
          by_cases comma : token.kind = .comma
          · have others : Concludes (entries >>= fun others => second (first :: others)) later := by
              rw [List.length_cons] at shorter
              exact ih later.length (by omega) (fun found => further (first :: found))
                (fun found => rests (first :: found)) rfl
            exact others.congr fun rest => moreEntries_of_comma comma
          · apply (further [first] (token :: later)).congr
            intro rest
            have other : (front (token :: later ++ rest)).kind ≠ .comma := comma
            exact moreEntries_of_other other

end Readers

section Whole

variable {tokens : List Token}

theorem rests_finish (command : Command) : Rests (finish command) where
  reports := by
    intro closing broken
    apply run'_of_error
    simp [finish, expect, one, Token.textOf, Token.checked, broken, bind, StateT.bind, Except.bind]
  ends := by
    refine ⟨.ok command, by simp, ?_⟩
    intro closing ended
    simp [StateT.run', finish_eq_ok.mpr ⟨rfl, finishes_nil.mpr ⟨ended, rfl⟩⟩, Functor.map,
      Except.map]

theorem concludes_finish (command : Command) (tokens : List Token) :
    Concludes (finish command) tokens := by
  cases tokens with
  | nil => exact (rests_finish command).concludes
  | cons token later =>
      cases found : Token.textOf .endOfInput .ending token with
      | error reason =>
          have failed : ∀ rest, expect .endOfInput .ending (token :: later ++ rest) =
              .error reason := fun rest => one_of_error found
          exact concludes_of_error fun rest => bind_of_error (failed rest)
      | ok text =>
          have taken : ∀ rest, expect .endOfInput .ending (token :: later ++ rest) =
              .ok (text, later ++ rest) := fun rest => one_eq_ok.mpr ⟨found, rfl⟩
          refine .fixed (.ok command) fun rest => ?_
          rw [finish, run'_congr (bind_of_ok (taken rest))]
          rfl

theorem concludes_throw (reason : CommandError) (tokens : List Token) :
    Concludes (throw reason) tokens :=
  concludes_of_error fun _ => rfl

theorem checked_of_error (broken : (front tokens).kind = .error) :
    one Token.checked tokens = .error (.lexical (front tokens).text) :=
  one_of_error (if_pos broken)

theorem checked_of_sound (sound : (front tokens).kind ≠ .error) :
    one Token.checked tokens = .ok (front tokens, tokens.tail) :=
  one_eq_ok.mpr ⟨Token.checked_of_ne_error sound, rfl⟩

theorem concludes_checked {second : Token → Reader Command} {missing : CommandError}
    (shows : missing.ShowsEnding)
    (misses : ∀ token, token.kind = .endOfInput → second token = throw missing)
    (further : ∀ token behind, Concludes (second token) behind) :
    Concludes (one Token.checked >>= second) tokens := by
  cases tokens with
  | nil =>
      apply Rests.concludes
      refine ⟨?_, .error missing, ?_, ?_⟩
      · intro closing broken
        exact run'_of_error (bind_of_error (checked_of_error broken))
      · rintro _ ⟨⟩
        exact shows
      · intro closing ended
        have sound : (front closing).kind ≠ .error := by simp [ended]
        apply run'_of_error
        rw [bind_of_ok (checked_of_sound sound), misses _ ended]
        rfl
  | cons token later =>
      by_cases broken : token.kind = .error
      · have failed : ∀ rest, one Token.checked (token :: later ++ rest) =
            .error (.lexical token.text) := fun rest => checked_of_error broken
        exact concludes_of_error fun rest => bind_of_error (failed rest)
      · have taken : ∀ rest, one Token.checked (token :: later ++ rest) =
            .ok (token, later ++ rest) := fun rest => checked_of_sound broken
        exact (further token later).congr fun rest => bind_of_ok (taken rest)

theorem concludes_tableFilter (make : String → Option Entry → Command) :
    Concludes (do
      let (table, filtered) ← tableFilter
      finish (make table filtered)) tokens := by
  simp only [tableFilter, Reader.table, bind_assoc, pure_bind]
  apply concludes_word (by decide)
  intro afterWord shorter
  apply concludes_name
  intro table afterTable shorterStill
  exact concludes_filter (fun filtered => concludes_finish _) (rests_finish _)

theorem concludes_insertion : Concludes insertion tokens := by
  rw [insertion]
  apply concludes_word (by decide)
  intro afterInto _
  apply concludes_name
  intro table afterTable _
  apply concludes_word (by decide)
  intro afterOpen _
  apply concludes_items (minds_textOf .name .column (by decide))
  intro columns afterColumns
  apply concludes_word (by decide)
  intro afterWord _
  apply concludes_word (by decide)
  intro afterValuesOpen _
  apply concludes_items minds_valueText
  intro values afterValues
  by_cases sameLength : columns.length = values.length
  · rw [if_neg (not_not.mpr sameLength)]
    exact concludes_finish _ afterValues
  · rw [if_pos sameLength]
    exact concludes_throw _ _

theorem concludes_change : Concludes change tokens := by
  rw [change]
  apply concludes_name
  intro table afterTable _
  apply concludes_word (by decide)
  intro afterWord _
  apply concludes_entries
  · intro changes behind
    exact concludes_filter (fun filtered => concludes_finish _) (rests_finish _)
  · intro changes
    exact rests_filter (rests_finish _)

theorem concludes_bridge : Concludes bridge tokens := by
  rw [bridge]
  apply concludes_checked .noBridgeAction
  · rintro ⟨_, text⟩ rfl
    rfl
  · rintro ⟨kind, text⟩ behind
    cases kind with
    | connect =>
        exact (minds_textOf .value .address (by decide)).concludes
          fun address rest _ => concludes_finish _ rest
    | disconnect | subscribe | unsubscribe => exact concludes_finish _ behind
    | _ => exact concludes_throw _ behind

/-- Some tokens fix the answer of a whole command, or it waits for what stands behind them. -/
theorem concludes_command (tokens : List Token) : Concludes Reader.command tokens := by
  rw [Reader.command]
  apply concludes_checked (.unexpected .command)
  · rintro ⟨_, text⟩ rfl
    rfl
  · rintro ⟨kind, text⟩ behind
    cases kind with
    | help | status | stop | start => exact concludes_finish _ behind
    | select | subscribe =>
        apply concludes_word (by decide)
        intro rest _
        exact concludes_tableFilter _
    | unsubscribe =>
        apply concludes_word (by decide)
        intro afterWord _
        apply concludes_name
        intro table rest _
        exact concludes_finish _ rest
    | insert => exact concludes_insertion
    | update => exact concludes_change
    | delete => exact concludes_tableFilter _
    | mysql => exact concludes_bridge
    | _ => exact concludes_throw _ behind

end Whole

section Answers

variable {reader : Reader Command} {tokens : List Token}

theorem Concludes.ended (concludes : Concludes reader tokens) (text : String)
    (later : List Token) :
    StateT.run' reader (tokens ++ ⟨.endOfInput, text⟩ :: later) = StateT.run' reader tokens := by
  cases concludes with
  | fixed answer fixed =>
      have alone := fixed []
      rw [List.append_nil] at alone
      rw [fixed, alone]
  | rests rests same =>
      obtain ⟨verdict, -, ends⟩ := rests.ends
      have alone := same [] (Or.inr rfl)
      rw [List.append_nil] at alone
      rw [run'_congr (same _ (Or.inr rfl)), run'_congr alone, ends _ rfl, ends [] rfl]

theorem Concludes.shown (concludes : Concludes reader tokens) {reason : CommandError}
    (failed : StateT.run' reader tokens = .error reason) :
    reason.ShowsEnding ∨ ∀ rest, StateT.run' reader (tokens ++ rest) = .error reason := by
  cases concludes with
  | fixed answer fixed =>
      have alone := fixed []
      rw [List.append_nil, failed] at alone
      exact Or.inr fun rest => (fixed rest).trans alone.symm
  | rests rests same =>
      obtain ⟨verdict, shows, ends⟩ := rests.ends
      have alone := same [] (Or.inr rfl)
      rw [List.append_nil] at alone
      rw [run'_congr alone, ends [] rfl] at failed
      exact Or.inl (shows reason failed)

/-- A fault behind some tokens is reported, or their answer is fixed. -/
theorem Concludes.broken (concludes : Concludes reader tokens) :
    (∀ message later, StateT.run' reader (tokens ++ ⟨.error, message⟩ :: later) =
      .error (.lexical message)) ∨
      ∃ answer, ∀ rest, StateT.run' reader (tokens ++ rest) = answer := by
  cases concludes with
  | fixed answer fixed => exact Or.inr ⟨answer, fixed⟩
  | rests rests same =>
      refine Or.inl fun message later => ?_
      rw [run'_congr (same _ (Or.inl rfl))]
      exact rests.reports _ rfl

end Answers

end Reader

namespace Command

/-- A fault is never part of a command. -/
theorem ofTokens_ne_ok {front later : List Token} {message : String} {command : Command}
    (unbroken : ∀ token ∈ front, token.kind ≠ .endOfInput ∧ token.kind ≠ .error) :
    ofTokens (front ++ ⟨.error, message⟩ :: later) ≠ .ok command := by
  intro accepted
  obtain ⟨nonempty, rest, ⟨taken, split, fits⟩, ended⟩ := ofTokens_eq_ok.mp accepted
  have inside := isToken_of_fits nonempty fits
  rcases List.append_eq_append_iff.mp split with ⟨middle, rfl, behind⟩ | ⟨middle, rfl, behind⟩
  · -- The fault would be the first of the tokens that say the command, or stand behind them.
    cases middle with
    | nil =>
        rw [List.nil_append] at behind
        subst behind
        nomatch ended
    | cons token middle =>
        obtain ⟨rfl, -⟩ := List.cons.inj behind
        exact (inside ⟨.error, message⟩ (by simp)).2 rfl
  · cases middle with
    | nil =>
        subst behind
        nomatch ended
    | cons token middle =>
        subst behind
        exact (unbroken token (by simp)).1 ended

/-- Nothing behind the end of a command or behind a fault is looked at. -/
theorem decides_ofTokens (front : List Token) : Decides front := by
  have concludes := Reader.concludes_command front
  constructor
  case ended => exact concludes.ended
  case shown => exact fun reason => concludes.shown
  case broken =>
    intro unbroken message later
    rcases concludes.broken with reported | ⟨answer, fixed⟩
    · exact ⟨.lexical message, reported message later, Or.inl rfl⟩
    · cases answer with
      | ok command =>
          have accepted := fixed (⟨.error, message⟩ :: later)
          exact (ofTokens_ne_ok unbroken accepted).elim
      | error reason => exact ⟨reason, fixed _, Or.inr fixed⟩

example : ofTokens [⟨.mysql, "mysql"⟩, ⟨.connect, "connect"⟩, ⟨.string, "\x27db\x27"⟩,
    ⟨.error, "unterminated string: "⟩] = .error (.unexpected .address "\x27db\x27") :=
  rfl

end Command

end TableFeed
