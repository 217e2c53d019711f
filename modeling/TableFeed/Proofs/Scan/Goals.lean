import TableFeed.Proofs.Scan.Lexeme

/-!
# What each goal finds

A goal takes some kinds of tokens, and each of them leads to a place. The main statements say that a
goal finds a token exactly when the text begins with a lexeme of a kind that it takes, and that a
fault is found in some characters at the front of the text.
-/

namespace TableFeed

/-- The kinds that a goal takes, with the place to which each of them leads. -/
def Goal.Takes : Goal → Token.Kind → Place → Prop
  | command, kind, next => (kind, next) ∈ commandWords
  | bridgeAction, kind, next => (kind, next) ∈ bridgeWords
  | keyword word place, kind, next => kind = word ∧ next = place
  | name place, kind, next => kind = .name ∧ next = place
  | mark _ sign place, kind, next => kind = sign ∧ next = place
  | value place, kind, next => (kind = .value ∨ kind = .string) ∧ next = place
  | separator item closed, kind, next =>
      (kind = .comma ∧ next = item) ∨ (kind = .rightParen ∧ next = closed)
  | commaOrKeyword item word place, kind, next =>
      (kind = .comma ∧ next = item) ∨ (kind = word ∧ next = place)
  | nothing, _, _ => False

/-- A goal looks for words where it looks for keywords, and for a mark by its spelling. -/
def Goal.Sound : Goal → Prop
  | keyword word _ | commaOrKeyword _ word _ => word.isKeyword = true
  | mark symbol sign _ => sign.isMark = true ∧ sign.spelling.toList = [symbol]
  | _ => True

theorem Place.goal_sound (place : Place) : place.goal.Sound := by
  cases place <;> simp [goal, Goal.Sound, Token.Kind.isKeyword, Token.Kind.isMark,
    Token.Kind.spelling]

variable {kind : Token.Kind} {next place : Place} {text lexeme : List Char}
variable {first : Char} {later : List Char} {words : List (Token.Kind × Place)}

/-- The words of a list are keywords, and each of them is found by its spelling. -/
def Findable (words : List (Token.Kind × Place)) : Prop :=
  ∀ entry ∈ words, entry.1.isKeyword = true ∧
    findWord words entry.1.spelling.toList = some entry

theorem findable_commandWords : Findable commandWords := by
  unfold Findable
  decide

theorem findable_bridgeWords : Findable bridgeWords := by
  unfold Findable
  decide

theorem findable_keyword (keyword : kind.isKeyword = true) : Findable [(kind, place)] := by
  simp [Findable, keyword, findWord]

/-- A word of a list leads to one place only. -/
theorem next_eq_of_findable (findable : Findable words) (leads : (kind, next) ∈ words)
    (member : (kind, place) ∈ words) : next = place := by
  have same := (findable _ leads).2.symm.trans (findable _ member).2
  exact congrArg Prod.snd (Option.some.inj same)

theorem readWord_eq_token (findable : Findable words) :
    readWord words text = .token kind lexeme next ↔
      (kind, next) ∈ words ∧ Begins text kind lexeme := by
  have found : findWord words (wordOf text) = some (kind, next) ↔
      (kind, next) ∈ words ∧ kind.spelling.toList = wordOf text := by
    constructor
    · intro found
      exact ⟨List.mem_of_find?_eq_some found, spelling_of_findWord found⟩
    · rintro ⟨member, spelled⟩
      rw [← spelled]
      exact (findable _ member).2
  constructor
  · intro reading
    unfold readWord at reading
    split at reading
    · rename_i foundKind foundNext isFound
      cases reading
      obtain ⟨member, spelled⟩ := found.mp isFound
      exact ⟨member, (begins_keyword (findable _ member).1).mpr ⟨rfl, spelled⟩⟩
    · nomatch reading
  · rintro ⟨member, begins⟩
    obtain ⟨word, spelled⟩ := (begins_keyword (findable _ member).1).mp begins
    rw [readWord, found.mpr ⟨member, spelled.trans word.symm⟩, word]

theorem readCommand_of_begins (member : (kind, next) ∈ commandWords)
    (begins : Begins text kind lexeme) : readCommand text = readWord commandWords text := by
  have spelled : kind.spelling.toList = lexeme :=
    ((begins_keyword (findable_commandWords _ member).1).mp begins).2
  obtain ⟨-, later, rfl, -⟩ := begins
  rw [← spelled]
  simp only [commandWords, List.mem_cons, List.not_mem_nil, or_false, Prod.mk.injEq] at member
  rcases member with ⟨rfl, -⟩ | ⟨rfl, -⟩ | ⟨rfl, -⟩ | ⟨rfl, -⟩ | ⟨rfl, -⟩ | ⟨rfl, -⟩ | ⟨rfl, -⟩ |
    ⟨rfl, -⟩ | ⟨rfl, -⟩ | ⟨rfl, -⟩ | ⟨rfl, -⟩ <;> rfl

theorem readCommand_eq_token :
    readCommand text = .token kind lexeme next ↔
      (kind, next) ∈ commandWords ∧ Begins text kind lexeme := by
  constructor
  · intro reading
    apply (readWord_eq_token findable_commandWords).mp
    unfold readCommand at reading
    split at reading
    · nomatch reading
    · nomatch reading
    · split at reading
      · exact reading
      · nomatch reading
    · split at reading
      · exact reading
      · nomatch reading
  · rintro ⟨member, begins⟩
    rw [readCommand_of_begins member begins]
    exact (readWord_eq_token findable_commandWords).mpr ⟨member, begins⟩

theorem readBridgeAction_of_begins (member : (kind, next) ∈ bridgeWords)
    (begins : Begins (first :: later) kind lexeme) :
    readBridgeAction first later = readWord bridgeWords (first :: later) := by
  have spelled : kind.spelling.toList = lexeme :=
    ((begins_keyword (findable_bridgeWords _ member).1).mp begins).2
  obtain ⟨-, rest, split, -⟩ := begins
  rw [← spelled] at split
  simp only [bridgeWords, List.mem_cons, List.not_mem_nil, or_false, Prod.mk.injEq] at member
  rcases member with ⟨rfl, -⟩ | ⟨rfl, -⟩ | ⟨rfl, -⟩ | ⟨rfl, -⟩ <;>
    (obtain ⟨rfl, rfl⟩ := List.cons.inj split; rfl)

theorem readBridgeAction_eq_token :
    readBridgeAction first later = .token kind lexeme next ↔
      (kind, next) ∈ bridgeWords ∧ Begins (first :: later) kind lexeme := by
  constructor
  · intro reading
    apply (readWord_eq_token findable_bridgeWords).mp
    unfold readBridgeAction at reading
    split at reading
    · exact reading
    · nomatch reading
  · rintro ⟨member, begins⟩
    rw [readBridgeAction_of_begins member begins]
    exact (readWord_eq_token findable_bridgeWords).mpr ⟨member, begins⟩

theorem readName_eq_token :
    readName place first later = .token kind lexeme next ↔
      (kind = .name ∧ next = place) ∧ Begins (first :: later) kind lexeme := by
  constructor
  · intro reading
    unfold readName at reading
    split at reading
    · rename_i letter
      cases reading
      exact ⟨⟨rfl, rfl⟩, begins_name.mpr ⟨letter, rfl⟩⟩
    · nomatch reading
  · rintro ⟨⟨rfl, rfl⟩, begins⟩
    obtain ⟨letter, rfl⟩ := begins_name.mp begins
    rw [readName, if_pos letter]

theorem readMark_eq_token {symbol : Char} {sign : Token.Kind} (mark : sign.isMark = true)
    (spelled : sign.spelling.toList = [symbol]) :
    readMark symbol sign place first = .token kind lexeme next ↔
      (kind = sign ∧ next = place) ∧ Begins (first :: later) kind lexeme := by
  constructor
  · intro reading
    unfold readMark at reading
    split at reading
    · rename_i same
      cases reading
      exact ⟨⟨rfl, rfl⟩, (begins_mark mark spelled).mpr ⟨same, rfl⟩⟩
    · nomatch reading
  · rintro ⟨⟨rfl, rfl⟩, begins⟩
    obtain ⟨same, rfl⟩ := (begins_mark mark spelled).mp begins
    rw [readMark, if_pos same]

theorem readQuoted_eq_token :
    readQuoted place later = .token kind lexeme next ↔
      (kind = .string ∧ next = place) ∧ Begins (quoteMark :: later) kind lexeme := by
  constructor
  · intro reading
    unfold readQuoted at reading
    split at reading
    · rename_i part found
      cases reading
      exact ⟨⟨rfl, rfl⟩, begins_string.mpr ⟨rfl, part, found, rfl⟩⟩
    · nomatch reading
  · rintro ⟨⟨rfl, rfl⟩, begins⟩
    obtain ⟨-, part, found, rfl⟩ := begins_string.mp begins
    rw [readQuoted, found]

theorem readValue_eq_token :
    readValue place first later = .token kind lexeme next ↔
      ((kind = .value ∨ kind = .string) ∧ next = place) ∧ Begins (first :: later) kind lexeme := by
  unfold readValue
  by_cases quoted : first = quoteMark
  · subst first
    rw [if_pos rfl, readQuoted_eq_token]
    constructor
    · rintro ⟨⟨rfl, rfl⟩, begins⟩
      exact ⟨⟨Or.inr rfl, rfl⟩, begins⟩
    · rintro ⟨⟨rfl | rfl, rfl⟩, begins⟩
      · nomatch (begins_value.mp begins).1
      · exact ⟨⟨rfl, rfl⟩, begins⟩
  · rw [if_neg quoted]
    constructor
    · intro reading
      split at reading
      · nomatch reading
      · rename_i bare
        cases reading
        exact ⟨⟨Or.inl rfl, rfl⟩, begins_value.mpr ⟨by simpa using bare, rfl⟩⟩
    · rintro ⟨⟨rfl | rfl, rfl⟩, begins⟩
      · obtain ⟨bare, rfl⟩ := begins_value.mp begins
        simp [bare]
      · exact (quoted (begins_string.mp begins).1).elim

theorem begins_comma :
    Begins (first :: later) .comma lexeme ↔ first = ',' ∧ [first] = lexeme :=
  begins_mark rfl rfl

theorem begins_rightParen :
    Begins (first :: later) .rightParen lexeme ↔ first = ')' ∧ [first] = lexeme :=
  begins_mark rfl rfl

theorem readSeparator_eq_token {item closed : Place} :
    readSeparator item closed first later = .token kind lexeme next ↔
      ((kind = .comma ∧ next = item) ∨ (kind = .rightParen ∧ next = closed)) ∧
        Begins (first :: later) kind lexeme := by
  unfold readSeparator
  constructor
  · intro reading
    split at reading
    · rename_i same
      cases reading
      exact ⟨Or.inl ⟨rfl, rfl⟩, begins_comma.mpr ⟨same, rfl⟩⟩
    · split at reading
      · rename_i same
        cases reading
        exact ⟨Or.inr ⟨rfl, rfl⟩, begins_rightParen.mpr ⟨same, rfl⟩⟩
      · nomatch reading
  · rintro ⟨⟨rfl, rfl⟩ | ⟨rfl, rfl⟩, begins⟩
    · obtain ⟨rfl, rfl⟩ := begins_comma.mp begins
      rfl
    · obtain ⟨rfl, rfl⟩ := begins_rightParen.mp begins
      rfl

/-- No keyword begins where a comma stands. -/
theorem ne_comma_of_begins {word : Token.Kind} (keyword : word.isKeyword = true)
    (begins : Begins (first :: later) word lexeme) : first ≠ ',' := by
  rintro rfl
  obtain ⟨-, spelled⟩ := (begins_keyword keyword).mp begins
  obtain ⟨-, rest, split, -⟩ := begins
  rw [← spelled] at split
  revert keyword split
  cases word <;> simp [Token.Kind.isKeyword, Token.Kind.spelling]

theorem readCommaOrKeyword_eq_token {item : Place} {word : Token.Kind}
    (keyword : word.isKeyword = true) :
    (if first = ',' then .token .comma [first] item
      else readWord [(word, place)] (first :: later)) = Reading.token kind lexeme next ↔
      ((kind = .comma ∧ next = item) ∨ (kind = word ∧ next = place)) ∧
        Begins (first :: later) kind lexeme := by
  constructor
  · intro reading
    split at reading
    · rename_i same
      cases reading
      exact ⟨Or.inl ⟨rfl, rfl⟩, begins_comma.mpr ⟨same, rfl⟩⟩
    · obtain ⟨member, begins⟩ := (readWord_eq_token (findable_keyword keyword)).mp reading
      rw [List.mem_singleton, Prod.mk.injEq] at member
      exact ⟨Or.inr member, begins⟩
  · rintro ⟨⟨rfl, rfl⟩ | ⟨rfl, rfl⟩, begins⟩
    · obtain ⟨same, rfl⟩ := begins_comma.mp begins
      rw [if_pos same]
    · rw [if_neg (ne_comma_of_begins keyword begins)]
      exact (readWord_eq_token (findable_keyword keyword)).mpr ⟨List.mem_singleton_self _, begins⟩

/-- A goal finds a token exactly when the text begins with a lexeme of a kind that it takes. -/
theorem Goal.read_eq_token {goal : Goal} (sound : goal.Sound) :
    goal.read text = .token kind lexeme next ↔ goal.Takes kind next ∧ Begins text kind lexeme := by
  cases text with
  | nil =>
      have nothing : goal.read [] ≠ .token kind lexeme next := by
        intro reading
        exact Goal.text_ne_nil_of_read reading rfl
      simp only [nothing, not_begins_nil, and_false]
  | cons first later =>
      cases goal with
      | command => exact readCommand_eq_token
      | bridgeAction => exact readBridgeAction_eq_token
      | keyword word place =>
          refine (readWord_eq_token (findable_keyword sound)).trans ?_
          rw [List.mem_singleton, Prod.mk.injEq]
          rfl
      | name place => exact readName_eq_token
      | mark symbol sign place => exact readMark_eq_token sound.1 sound.2
      | value place => exact readValue_eq_token
      | separator item closed => exact readSeparator_eq_token
      | commaOrKeyword item word place => exact readCommaOrKeyword_eq_token sound
      | nothing =>
          constructor
          · nofun
          · rintro ⟨⟨⟩, -⟩

theorem Goal.Takes.isToken {goal : Goal} (sound : goal.Sound)
    (takes : goal.Takes kind next) : kind ≠ .endOfInput ∧ kind ≠ .error := by
  have keyword : ∀ word : Token.Kind, word.isKeyword = true →
      word ≠ .endOfInput ∧ word ≠ .error := by
    intro word
    cases word <;> decide
  cases goal with
  | command => exact keyword kind (findable_commandWords _ takes).1
  | bridgeAction => exact keyword kind (findable_bridgeWords _ takes).1
  | keyword word place =>
      obtain ⟨rfl, -⟩ := takes
      exact keyword kind sound
  | name place =>
      obtain ⟨rfl, -⟩ := takes
      decide
  | mark symbol sign place =>
      obtain ⟨rfl, -⟩ := takes
      constructor
      · rintro rfl
        nomatch sound.1
      · rintro rfl
        nomatch sound.1
  | value place =>
      obtain ⟨rfl | rfl, -⟩ := takes
      · decide
      · decide
  | separator item closed =>
      rcases takes with ⟨rfl, -⟩ | ⟨rfl, -⟩
      · decide
      · decide
  | commaOrKeyword item word place =>
      rcases takes with ⟨rfl, -⟩ | ⟨rfl, -⟩
      · decide
      · exact keyword kind sound
  | nothing => exact takes.elim

/-! ## What each goal refuses -/

/-- The faults that can be found where a goal looks for something. -/
def Goal.faults : Goal → List Fault
  | command => [.noCommand, .unknownWord]
  | bridgeAction => [.noBridgeAction, .unknownWord]
  | keyword _ _ => [.unknownWord]
  | name _ => [.noLetter]
  | mark symbol _ _ => [.otherMark symbol]
  | value _ => [.noValue, .unclosed]
  | separator _ _ => [.noSeparator]
  | commaOrKeyword _ _ _ => [.unknownWord]
  | nothing => [.unknownWord]

/-- A reading that finds a fault takes some characters from the front of the text, and the fault is
one of the given ones. -/
def Reading.Refuses (text : List Char) (faults : List Fault) : Reading → Prop
  | fault found lexeme => lexeme <+: text ∧ found ∈ faults
  | token _ _ _ | exhausted => True

theorem wordOf_isPrefix (text : List Char) : wordOf text <+: text :=
  List.takeWhile_prefix _

theorem readWord_refuses (words : List (Token.Kind × Place)) (text : List Char) :
    (readWord words text).Refuses text [.unknownWord] := by
  unfold readWord
  split
  · trivial
  · exact ⟨wordOf_isPrefix text, List.mem_singleton_self _⟩

theorem Reading.Refuses.mono {reading : Reading} {faults others : List Fault}
    (refuses : reading.Refuses text faults) (included : faults ⊆ others) :
    reading.Refuses text others := by
  cases reading with
  | fault found lexeme => exact ⟨refuses.1, included refuses.2⟩
  | _ => trivial

theorem readCommand_refuses (text : List Char) :
    (readCommand text).Refuses text (Goal.faults .command) := by
  have word : (readWord commandWords text).Refuses text (Goal.faults .command) :=
    (readWord_refuses commandWords text).mono (by simp [Goal.faults])
  unfold readCommand
  split
  · exact ⟨List.nil_prefix, List.mem_cons_self⟩
  · exact ⟨List.prefix_rfl, List.mem_cons_self⟩
  · split
    · exact word
    · exact ⟨List.prefix_append ['s', _] _, List.mem_cons_self⟩
  · split
    · exact word
    · exact ⟨List.prefix_append [_] _, List.mem_cons_self⟩

theorem readBridgeAction_refuses (first : Char) (later : List Char) :
    (readBridgeAction first later).Refuses (first :: later) (Goal.faults .bridgeAction) := by
  unfold readBridgeAction
  split
  · exact (readWord_refuses bridgeWords _).mono (by simp [Goal.faults])
  · exact ⟨(List.prefix_cons_inj first).mpr (wordOf_isPrefix later), List.mem_cons_self⟩

theorem readValue_refuses (next : Place) (first : Char) (later : List Char) :
    (readValue next first later).Refuses (first :: later) (Goal.faults (.value next)) := by
  unfold readValue readQuoted
  split
  · rename_i quoted
    subst first
    split
    · trivial
    · exact ⟨List.prefix_rfl, by simp [Goal.faults]⟩
  · split
    · exact ⟨List.prefix_append [first] later, List.mem_cons_self⟩
    · trivial

theorem readSeparator_refuses (item closed : Place) (first : Char) (later : List Char) :
    (readSeparator item closed first later).Refuses (first :: later)
      (Goal.faults (.separator item closed)) := by
  unfold readSeparator
  split
  · trivial
  · split
    · trivial
    · exact ⟨(List.prefix_cons_inj first).mpr (wordOf_isPrefix later), List.mem_cons_self⟩

theorem Goal.read_refuses (goal : Goal) (text : List Char) :
    (goal.read text).Refuses text goal.faults := by
  cases text with
  | nil =>
      cases goal with
      | command => exact readCommand_refuses []
      | _ => trivial
  | cons first later =>
      cases goal with
      | command => exact readCommand_refuses (first :: later)
      | bridgeAction => exact readBridgeAction_refuses first later
      | keyword kind next => exact readWord_refuses _ _
      | name next =>
          simp only [read, readName]
          split
          · trivial
          · exact ⟨List.prefix_append [first] later, List.mem_cons_self⟩
      | mark symbol kind next =>
          simp only [read, readMark]
          split
          · trivial
          · exact ⟨List.prefix_append [first] later, List.mem_cons_self⟩
      | value next => exact readValue_refuses next first later
      | separator item closed => exact readSeparator_refuses item closed first later
      | commaOrKeyword item kind next =>
          simp only [read]
          split
          · trivial
          · exact readWord_refuses _ _
      | nothing => exact ⟨wordOf_isPrefix _, List.mem_singleton_self _⟩

/-- A fault is found in some characters at the front of the text, and it is one that the goal can
meet. -/
theorem Goal.refuses_of_read {goal : Goal} {fault : Fault}
    (found : goal.read text = .fault fault lexeme) :
    (∃ later, text = lexeme ++ later) ∧ fault ∈ goal.faults := by
  have refuses := goal.read_refuses text
  rw [found] at refuses
  obtain ⟨⟨later, split⟩, member⟩ := refuses
  exact ⟨⟨later, split.symm⟩, member⟩

end TableFeed
