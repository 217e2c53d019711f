import TableFeed.Proofs.Scan.Blanks
import TableFeed.Proofs.Scan.Delivery

/-!
# Keywords are whole words

Where a scanner looks for a keyword, the whole word decides, however many of its letters have chosen
the keyword that it is compared with. The main statement says so for every place at which a keyword
is looked for, in every text. The word is handed out if it is one of the keywords of the place, and
otherwise the scan ends with a fault. The message about the fault quotes the whole word and nothing
else, unless the first letters of the word have already been refused.
-/

namespace TableFeed

/-- The keywords that are looked for at a place. -/
def Place.keywords : Place → List Token.Kind
  | start => [.help, .status, .stop, .start, .select, .subscribe, .unsubscribe, .insert, .update,
      .delete, .mysql]
  | bridgeWord => [.connect, .disconnect, .subscribe, .unsubscribe]
  | sourceWord => [.fromWord]
  | filterWord | afterChange => [.whereWord]
  | setWord => [.set]
  | intoWord => [.into]
  | valuesWord => [.values]
  | _ => []

/-- A keyword is looked for at a place in front of a text. The end of the text is no word, and
neither is the comma in front of another change. -/
structure Place.Seeks (place : Place) (text : List Char) : Prop where
  allowed : place.keywords ≠ []
  occupied : text ≠ []
  noComma : place = .afterChange → text.head? ≠ some ','

/-- Whether a word is compared with a keyword as a whole. One that begins a command or a bridge
action is not, if no keyword begins with its first letter, or with its first two letters when the
first one is an `s` in front of a command. -/
def Place.compares : Place → List Char → Bool
  | start, 's' :: second :: _ => ['t', 'e', 'u'].contains second
  | start, first :: _ => ['h', 'u', 'i', 'd', 'm'].contains first
  | bridgeWord, first :: _ => ['c', 'd', 's', 'u'].contains first
  | _, _ => true

/-- A scanner has handed out some of the tokens of a text. -/
def Scanner.Reached (text : String) (scanner : Scanner) : Prop :=
  ∃ count, (Scanner.pull count (.ofText text)).2 = scanner

/-- A word stands in a text, behind the given number of bytes and some blanks. It is the longest run
of characters there that are neither blanks nor null characters. -/
structure WordAt (text : String) (position : Nat) (before blanks word later : String) : Prop where
  split : text = before ++ blanks ++ word ++ later
  behind : before.utf8ByteSize = position
  blank : Blank blanks.toList
  starts : ∀ character ∈ (word ++ later).toList.head?, isBlank character = false
  inside : ∀ character ∈ word.toList, isBlank character = false ∧ character ≠ '\x00'
  ends : ∀ character ∈ later.toList.head?, isBlank character = true ∨ character = '\x00'

/-- What is handed out where a keyword is looked for and a word is found: the word, if it is one of
the keywords, and otherwise a fault. -/
structure Recognizes (place : Place) (compared : Bool) (start : Nat) (word : String)
    (tokens : List PlacedToken) : Prop where
  accepted : ∀ kind ∈ place.keywords, kind.spelling = word →
    ∃ others, tokens = ⟨⟨kind, word⟩, some start⟩ :: others
  only : ∀ placed others, tokens = placed :: others → placed.token.kind.isKeyword = true →
    placed.token.kind ∈ place.keywords ∧ placed.token.kind.spelling = word
  refused : (∀ kind ∈ place.keywords, kind.spelling ≠ word) →
    ∃ message stop, tokens = [⟨⟨.error, message⟩, none⟩, ⟨.ending, some stop⟩] ∧
      (compared = true →
        message = "Unexpected token: " ++ word ∧ stop = start + word.utf8ByteSize) ∧
      (compared = false →
        ∃ part, message = "Invalid command: " ++ part ∨ message = "Invalid mysql command: " ++ part)

/-! ## Where a scanner stands -/

/-- A cursor stands in a text: it knows how many bytes lie before it and which characters are still
to be read. -/
def Cursor.StandsIn (text : String) (cursor : Cursor) : Prop :=
  ∃ before, text.toList = before ++ cursor.rest ∧ cursor.position = byteLength before

section Standing

variable {text : String} {scanner later : Scanner} {placed : PlacedToken}

theorem Cursor.StandsIn.advance {cursor : Cursor} (stands : cursor.StandsIn text) (count : Nat) :
    (cursor.advance count).StandsIn text := by
  obtain ⟨before, split, position⟩ := stands
  refine ⟨before ++ cursor.rest.take count, ?_, ?_⟩
  · rw [split, advance_rest, List.append_assoc, List.take_append_drop]
  · rw [byteLength_append, ← position]
    rfl

theorem Scanner.standsIn_of_next? (step : scanner.next? = some (placed, later))
    (stands : scanner.cursor.StandsIn text) : later.cursor.StandsIn text := by
  obtain ⟨cursor, phase⟩ := scanner
  cases phase with
  | finished => cases step
  | closing =>
      obtain ⟨-, rfl⟩ := Prod.mk.inj (Option.some.inj step)
      exact stands
  | reading place =>
      have skipped : cursor.skipBlanks.StandsIn text := stands.advance _
      simp only [next?, readAt, Option.some.injEq] at step
      split at step
      · obtain ⟨-, rfl⟩ := Prod.mk.inj step
        exact skipped.advance _
      · obtain ⟨-, rfl⟩ := Prod.mk.inj step
        exact skipped.advance _
      · obtain ⟨-, rfl⟩ := Prod.mk.inj step
        exact skipped

theorem Scanner.Reached.standsIn (reached : scanner.Reached text) :
    scanner.cursor.StandsIn text := by
  obtain ⟨count, rfl⟩ := reached
  induction count with
  | zero => exact ⟨[], rfl, rfl⟩
  | succ count ih =>
      rw [pull_succ_last]
      cases step : (pull count (.ofText text)).2.next? with
      | none => exact ih
      | some found => exact standsIn_of_next? step ih

/-- What a scanner has still to hand out is the rest of the tokens of its text. -/
theorem Scanner.Reached.scan_eq (reached : scanner.Reached text) :
    ∃ given, scan text = given ++ scanner.tokens := by
  obtain ⟨count, rfl⟩ := reached
  exact ⟨_, (pull_drained count _).symm⟩

/-- Behind the blanks, each cursor in a text stands in front of a word, which may be empty. -/
theorem Cursor.StandsIn.wordAt {cursor : Cursor} (stands : cursor.StandsIn text) :
    ∃ before blanks word later, WordAt text cursor.position before blanks word later ∧
      (word ++ later).toList = cursor.rest.dropWhile isBlank ∧
      word.toList = wordOf (cursor.rest.dropWhile isBlank) ∧
      (before ++ blanks).utf8ByteSize = cursor.skipBlanks.position := by
  obtain ⟨before, split, position⟩ := stands
  have skipped := List.takeWhile_append_dropWhile (p := isBlank) (l := cursor.rest)
  have starts := List.head?_dropWhile_not isBlank cursor.rest
  have blank := blank_takeWhile cursor.rest
  have behind := cursor.skipBlanks_position
  generalize cursor.rest.takeWhile isBlank = blanks at skipped blank behind
  generalize cursor.rest.dropWhile isBlank = rest at skipped starts ⊢
  obtain ⟨inside, later, parts, ends⟩ := wordOf_eq_iff.mp (Eq.refl (wordOf rest))
  generalize wordOf rest = word at inside parts ⊢
  refine ⟨String.ofList before, String.ofList blanks, String.ofList word, String.ofList later,
    ⟨?_, ?_, ?_, ?_, ?_, ?_⟩, ?_, String.toList_ofList, ?_⟩
  · rw [← String.ofList_append, ← String.ofList_append, ← String.ofList_append, List.append_assoc,
      List.append_assoc, ← parts, skipped, ← split, String.ofList_toList]
  · rw [← byteLength_eq, position]
  · rwa [String.toList_ofList]
  · rw [← String.ofList_append, String.toList_ofList, ← parts]
    intro character first
    rwa [Option.mem_def.mp first] at starts
  · rw [String.toList_ofList]
    intro character member
    have insideWord := inside character member
    rw [endsWord, Bool.or_eq_false_iff] at insideWord
    exact ⟨insideWord.1, by simpa using insideWord.2⟩
  · rw [String.toList_ofList]
    intro character first
    have endsHere := ends character first
    rw [endsWord, Bool.or_eq_true] at endsHere
    exact endsHere.imp_right beq_iff_eq.mp
  · rw [← String.ofList_append, String.toList_ofList, parts]
  · rw [← String.ofList_append, ← byteLength_eq, byteLength_append, ← position, behind]

end Standing

/-! ## Which words are keywords -/

section Keywords

variable {place next : Place} {kind : Token.Kind} {text lexeme later : List Char} {first : Char}
variable {found : Fault}

theorem Place.takes_of_mem_keywords (allowed : kind ∈ place.keywords) :
    kind.isKeyword = true ∧ ∃ next, place.goal.Takes kind next := by
  have words : ∀ words, Findable words → kind ∈ words.map Prod.fst →
      kind.isKeyword = true ∧ ∃ next, (kind, next) ∈ words := by
    intro words findable member
    obtain ⟨entry, inside, rfl⟩ := List.mem_map.mp member
    exact ⟨(findable entry inside).1, entry.2, inside⟩
  cases place with
  | start => exact words commandWords findable_commandWords allowed
  | bridgeWord => exact words bridgeWords findable_bridgeWords allowed
  | sourceWord | filterWord | setWord | intoWord | valuesWord =>
      obtain rfl := List.mem_singleton.mp allowed
      exact ⟨rfl, _, rfl, rfl⟩
  | afterChange =>
      obtain rfl := List.mem_singleton.mp allowed
      exact ⟨rfl, _, Or.inr ⟨rfl, rfl⟩⟩
  | _ => cases allowed

theorem Place.Seeks.mem_keywords (seeks : place.Seeks text)
    (reading : place.goal.read text = .token kind lexeme next) : kind ∈ place.keywords := by
  obtain ⟨takes, begins⟩ := (Goal.read_eq_token place.goal_sound).mp reading
  cases place with
  | start | bridgeWord => exact List.mem_map_of_mem (f := Prod.fst) takes
  | sourceWord | filterWord | setWord | intoWord | valuesWord =>
      obtain ⟨rfl, -⟩ := takes
      exact List.mem_cons_self
  | afterChange =>
      rcases takes with ⟨rfl, -⟩ | ⟨rfl, -⟩
      · obtain ⟨first, later, rfl⟩ := List.exists_cons_of_ne_nil seeks.occupied
        obtain ⟨rfl, -⟩ := begins_comma.mp begins
        exact (seeks.noComma rfl rfl).elim
      · exact List.mem_cons_self
  | _ => exact (seeks.allowed rfl).elim

theorem readWord_eq_fault {words : List (Token.Kind × Place)}
    (reading : readWord words text = .fault found lexeme) :
    found = .unknownWord ∧ lexeme = wordOf text := by
  unfold readWord at reading
  split at reading
  · cases reading
  · cases reading
    exact ⟨rfl, rfl⟩

theorem someBeginsWith_commandWords (other : first ≠ 's') :
    someBeginsWith commandWords [first] = ['h', 'u', 'i', 'd', 'm'].contains first := by
  have begins : someBeginsWith commandWords [first] = true ↔
      first = 'h' ∨ first = 'u' ∨ first = 'i' ∨ first = 'u' ∨ first = 'd' ∨ first = 'm' := by
    simp [someBeginsWith, commandWords, Token.Kind.spelling, List.isPrefixOf, other]
  have listed : ['h', 'u', 'i', 'd', 'm'].contains first = true ↔
      first = 'h' ∨ first = 'u' ∨ first = 'i' ∨ first = 'd' ∨ first = 'm' := by
    simp
  rw [Bool.eq_iff_iff, begins, listed]
  grind

theorem someBeginsWith_s_commandWords (second : Char) :
    someBeginsWith commandWords ['s', second] = ['t', 'e', 'u'].contains second := by
  rw [Bool.eq_iff_iff]
  simp [someBeginsWith, commandWords, Token.Kind.spelling, List.isPrefixOf]

theorem someBeginsWith_bridgeWords (first : Char) :
    someBeginsWith bridgeWords [first] = ['c', 'd', 's', 'u'].contains first := by
  rw [Bool.eq_iff_iff]
  simp [someBeginsWith, bridgeWords, Token.Kind.spelling, List.isPrefixOf]

/-- What is said about a word is decided by whether it is compared as a whole. -/
def Blames (compared : Bool) (text : List Char) (found : Fault) (lexeme : List Char) : Prop :=
  (compared = true → found = .unknownWord ∧ lexeme = wordOf text) ∧
    (compared = false → found = .noCommand ∨ found = .noBridgeAction)

theorem blames_of_whole {words : List (Token.Kind × Place)}
    (reading : readWord words text = .fault found lexeme) : Blames true text found lexeme := by
  refine ⟨fun _ => readWord_eq_fault reading, ?_⟩
  intro refused
  cases refused

theorem blames_of_early (early : found = .noCommand ∨ found = .noBridgeAction) :
    Blames false text found lexeme := by
  refine ⟨?_, fun _ => early⟩
  intro compared
  cases compared

theorem blames_of_readWord {words : List (Token.Kind × Place)} {compared : Bool} {other : Fault}
    {part : List Char} (early : other = .noCommand ∨ other = .noBridgeAction)
    (reading : (if compared then readWord words text else .fault other part) =
      .fault found lexeme) : Blames compared text found lexeme := by
  cases compared with
  | true => exact blames_of_whole reading
  | false =>
      cases reading
      exact blames_of_early early

theorem blames_of_readCommand (reading : readCommand (first :: later) = .fault found lexeme) :
    Blames (Place.compares .start (first :: later)) (first :: later) found lexeme := by
  by_cases isS : first = 's'
  · subst first
    cases later with
    | nil =>
        cases reading
        exact blames_of_early (Or.inl rfl)
    | cons second later =>
        rw [readCommand, someBeginsWith_s_commandWords] at reading
        exact blames_of_readWord (Or.inl rfl) reading
  · have compared : Place.compares .start (first :: later) =
        ['h', 'u', 'i', 'd', 'm'].contains first := by
      rw [Place.compares]
      rintro _ _ rfl
      exact fun _ => isS rfl
    rw [readCommand_of_other isS, someBeginsWith_commandWords isS, ← compared] at reading
    exact blames_of_readWord (Or.inl rfl) reading

theorem Place.Seeks.blames (seeks : place.Seeks text)
    (reading : place.goal.read text = .fault found lexeme) :
    Blames (place.compares text) text found lexeme := by
  obtain ⟨first, later, rfl⟩ := List.exists_cons_of_ne_nil seeks.occupied
  cases place with
  | start => exact blames_of_readCommand reading
  | bridgeWord =>
      have unfolded : readBridgeAction first later = .fault found lexeme := reading
      rw [readBridgeAction, someBeginsWith_bridgeWords] at unfolded
      exact blames_of_readWord (Or.inr rfl) unfolded
  | sourceWord | filterWord | setWord | intoWord | valuesWord =>
      exact blames_of_whole reading
  | afterChange =>
      have noComma : first ≠ ',' := fun comma => seeks.noComma rfl (congrArg some comma)
      have unfolded : (if first = ',' then Reading.token .comma [first] .changeColumn
        else readWord [(.whereWord, .filterColumn)] (first :: later)) = .fault found lexeme :=
        reading
      rw [if_neg noComma] at unfolded
      exact blames_of_whole unfolded
  | _ => exact (seeks.allowed rfl).elim

/-- A token that is read where a keyword is looked for is the whole word, and one of the keywords
of the place. -/
theorem Place.Seeks.spells {word : String} (seeks : place.Seeks text)
    (isWord : word.toList = wordOf text)
    (reading : place.goal.read text = .token kind lexeme next) :
    kind ∈ place.keywords ∧ kind.spelling = word := by
  have allowed := seeks.mem_keywords reading
  have keyword := (Place.takes_of_mem_keywords allowed).1
  have begins := ((Goal.read_eq_token place.goal_sound).mp reading).2
  obtain ⟨same, spelled⟩ := (begins_keyword keyword).mp begins
  exact ⟨allowed, String.toList_inj.mp (spelled.trans (same.symm.trans isWord.symm))⟩

end Keywords

/-- Whatever word a scanner meets where it looks for a keyword, it is recognized as a whole. -/
theorem recognizes_of_reached {text : String} {cursor : Cursor} {place : Place}
    (reached : Scanner.Reached text ⟨cursor, .reading place⟩)
    (seeks : place.Seeks (cursor.rest.dropWhile isBlank)) :
    ∃ given before blanks word later,
      scan text = given ++ (Scanner.mk cursor (.reading place)).tokens ∧
      WordAt text cursor.position before blanks word later ∧
      Recognizes place (place.compares (word ++ later).toList) (before ++ blanks).utf8ByteSize word
        (Scanner.mk cursor (.reading place)).tokens := by
  obtain ⟨given, whole⟩ := reached.scan_eq
  obtain ⟨before, blanks, word, later, wordAt, split, isWord, start⟩ := reached.standsIn.wordAt
  refine ⟨given, before, blanks, word, later, whole, wordAt, ?_⟩
  rw [start, split]
  have handed := Scanner.tokens_reading place cursor
  constructor
  case accepted =>
    rintro kind allowed rfl
    obtain ⟨keyword, next, takes⟩ := Place.takes_of_mem_keywords allowed
    have reading := (Goal.read_eq_token place.goal_sound).mpr
      ⟨takes, (begins_keyword keyword).mpr ⟨isWord.symm, rfl⟩⟩
    simp only [reading, Scanner.tokenAt, String.ofList_toList] at handed
    exact ⟨_, handed⟩
  case only =>
    intro placed others first keyword
    rw [handed] at first
    cases reading : place.goal.read (cursor.rest.dropWhile isBlank) with
    | token kind lexeme next =>
        rw [reading] at first
        obtain ⟨rfl, -⟩ := List.cons.inj first
        exact seeks.spells isWord reading
    | fault found lexeme =>
        rw [reading] at first
        obtain ⟨rfl, -⟩ := List.cons.inj first
        cases keyword
    | exhausted =>
        rw [reading] at first
        obtain ⟨rfl, -⟩ := List.cons.inj first
        cases keyword
  case refused =>
    intro unknown
    cases reading : place.goal.read (cursor.rest.dropWhile isBlank) with
    | token kind lexeme next =>
        obtain ⟨allowed, spelled⟩ := seeks.spells isWord reading
        exact (unknown kind allowed spelled).elim
    | fault found lexeme =>
        obtain ⟨⟨behind, parts⟩, -⟩ := Goal.refuses_of_read reading
        obtain ⟨whole, early⟩ := seeks.blames reading
        rw [reading] at handed
        refine ⟨_, _, handed, ?_, ?_⟩
        · intro compared
          obtain ⟨rfl, rfl⟩ := whole compared
          rw [← isWord] at parts ⊢
          rw [Cursor.advance_position (cursor.skipBlanks_rest.trans parts), byteLength_eq,
            String.ofList_toList]
          exact ⟨rfl, rfl⟩
        · intro refused
          rcases early refused with rfl | rfl
          · exact ⟨_, Or.inl rfl⟩
          · exact ⟨_, Or.inr rfl⟩
    | exhausted => exact (seeks.occupied (Goal.eq_nil_of_read reading)).elim

/-- Behind the name of the bridge a keyword is looked for, and only a part of one is found. -/
theorem recognizes_bridgeWord :
    (Scanner.Reached "mysql sub x" ⟨⟨5, " sub x".toList⟩, .reading .bridgeWord⟩ ∧
      Place.Seeks .bridgeWord "sub x".toList) ∧
    ∃ given before blanks word later,
      scan "mysql sub x" = given ++
        (Scanner.mk ⟨5, " sub x".toList⟩ (.reading .bridgeWord)).tokens ∧
      WordAt "mysql sub x" 5 before blanks word later ∧
      Recognizes .bridgeWord (Place.compares .bridgeWord (word ++ later).toList)
        (before ++ blanks).utf8ByteSize word
        (Scanner.mk ⟨5, " sub x".toList⟩ (.reading .bridgeWord)).tokens := by
  have reached : Scanner.Reached "mysql sub x" ⟨⟨5, " sub x".toList⟩, .reading .bridgeWord⟩ :=
    ⟨1, rfl⟩
  have seeks : Place.Seeks .bridgeWord "sub x".toList :=
    ⟨by decide, by decide, nofun⟩
  exact ⟨⟨reached, seeks⟩, recognizes_of_reached reached seeks⟩

end TableFeed
