import TableFeed.Proofs.Scan.Moves
import TableFeed.Proofs.Scan.Words

/-!
# What a head finds

Looking for something with a head comes to the same as reading it from the text behind the blanks. A
token that is read is handed out, a fault that is read is reported, and in both cases the characters
that were read lie behind the head. The main statement says so for each goal. The argument about
words does not depend on how many letters have chosen a keyword: the head has either gone over the
whole spelling, or it has just met the first character that differs.
-/

namespace TableFeed

variable {text : String}

/-- What has been read is settled: a token has been handed out, a fault has been reported, or
nothing was left. -/
inductive Settles (tokens : List PlacedToken) (before : List Char) :
    Reading → Option Place → Tape text → Prop
  | token {tape : Tape text} {kind : Token.Kind} {lexeme behind : List Char} {next : Place}
      (stands : tape.Stands
        (tokens ++ [⟨⟨kind, String.ofList lexeme⟩, some (byteLength before)⟩])
        (before ++ lexeme) [] behind) :
      Settles tokens before (.token kind lexeme next) (some next) tape
  | fault {tape : Tape text} {fault : Fault} {lexeme behind : List Char}
      (stands : tape.Stands (tokens ++ [Scanner.errorToken fault lexeme]) (before ++ lexeme) []
        behind) :
      Settles tokens before (.fault fault lexeme) none tape
  | exhausted {tape : Tape text} {behind : List Char}
      (stands : tape.Stands tokens before [] behind) :
      Settles tokens before .exhausted none tape

/-- Before a text is compared with a keyword, some of its first characters may have been gone over
to choose the keyword, or all of them if there are fewer. None but the last of them ends a word. -/
inductive Tape.Chosen (tape : Tape text) (tokens : List PlacedToken) (before whole : List Char) :
    Nat → List Char → Prop
  | atOnce (stands : tape.Stands tokens before [] whole) :
      Chosen tape tokens before whole 0 []
  | behind {front rest : List Char} (split : whole = front ++ rest)
      (inside : ∀ character ∈ front, endsWord character = false)
      (wentOn : tape.WentOn tokens before front rest) :
      Chosen tape tokens before whole (front.length + 1) (front ++ rest.take 1)

/-- Where comparing a text with a spelling leads: over the whole spelling, or over the first
character that differs. -/
inductive Tape.Compared (tape : Tape text) (tokens : List PlacedToken)
    (before whole spelling : List Char) : Bool → Char → Prop
  | same {rest : List Char} {last : Char} (split : whole = spelling ++ rest)
      (stands : tape.Stands tokens before spelling rest) :
      Compared tape tokens before whole spelling true last
  | differs {front rest : List Char} {last : Char} (split : whole = front ++ rest)
      (inside : ∀ character ∈ front, endsWord character = false)
      (wentOn : tape.WentOn tokens before front rest)
      (met : ∀ character ∈ rest.head?, character = last) (other : ¬ spelling <+: whole) :
      Compared tape tokens before whole spelling false last

open TableFeed.Action

/-! ## Words -/

section Words

variable {tape : Tape text} {tokens : List PlacedToken}
variable {before whole front rest spelling : List Char} {count : Nat}
variable {kind : Token.Kind} {next : Place} {words : List (Token.Kind × Place)}

theorem does_compare (last : Char) {done others : List Char}
    (stands : tape.Stands tokens before done rest)
    (unbroken : ∀ character ∈ done ++ others, endsWord character = false) :
    Does (Action.compare others last) tape fun answer later =>
      later.Compared tokens before (done ++ rest) (done ++ others) answer.1 answer.2 := by
  induction others generalizing tape done rest last with
  | nil =>
      rw [Action.compare, List.append_nil]
      exact does_pure (.same rfl stands)
  | cons expected others ih =>
      rw [Action.compare]
      apply (does_next stands).bind
      rintro found later ⟨same, wentOn⟩
      by_cases met : found = expected
      · rw [if_pos met]
        subst found
        cases rest with
        | nil =>
            -- No spelling contains the character that stands for the end of the text.
            have ends := unbroken expected (by simp)
            rw [← met] at ends
            nomatch ends
        | cons character rest =>
            obtain rfl : character = expected := met
            have further := ih character wentOn.stands (by simpa using unbroken)
            simpa using further
      · rw [if_neg met]
        refine does_pure (.differs rfl ?_ wentOn ?_ ?_)
        · exact fun character member => unbroken character (List.mem_append_left _ member)
        · rintro character first
          rw [same, Option.mem_def.mp first]
          rfl
        · rw [List.prefix_append_right_inj]
          rintro ⟨more, rfl⟩
          exact met same

theorem take_eq_of_isPrefix {front rest : List Char} (starts : spelling <+: front ++ rest)
    (fits : front.length + 1 ≤ spelling.length) :
    front ++ rest.take 1 = spelling.take (front.length + 1) := by
  obtain ⟨more, whole⟩ := starts
  have taken := congrArg (List.take (front.length + 1)) whole
  rwa [List.take_append_of_le_length fits, List.take_length_add_append, eq_comm] at taken

theorem Tape.Chosen.stands {passed : List Char}
    (chosen : tape.Chosen tokens before whole count passed) :
    ∃ behind, whole = passed ++ behind ∧ tape.Stands tokens before passed behind := by
  cases chosen with
  | atOnce stands => exact ⟨whole, rfl, stands⟩
  | @behind front rest split inside wentOn =>
      refine ⟨rest.drop 1, ?_, wentOn.stands⟩
      rw [split, List.append_assoc, List.take_append_drop]

theorem does_compareBehind {passed : List Char}
    (chosen : tape.Chosen tokens before whole count passed) (fits : count ≤ spelling.length)
    (unbroken : ∀ character ∈ spelling, endsWord character = false) :
    Does (compareBehind spelling count) tape fun answer later =>
      later.Compared tokens before whole spelling answer.1 answer.2 := by
  obtain ⟨behind, parts, stands⟩ := chosen.stands
  apply (does_pending stands).bind
  rintro passed _ ⟨rfl, rfl⟩
  by_cases same : passed = spelling.take count
  · have spelled : passed ++ spelling.drop count = spelling := by
      rw [same, List.take_append_drop]
    have compared := does_compare (passed.getLast?.getD endMark) stands (by rwa [spelled])
    rw [spelled, ← parts] at compared
    rwa [if_pos same]
  · rw [if_neg same]
    cases chosen with
    | atOnce _ => exact (same rfl).elim
    | @behind front rest split inside wentOn =>
        refine does_pure (.differs split inside wentOn ?_ ?_)
        · intro character first
          cases rest with
          | nil => cases first
          | cons other rest =>
              obtain rfl : other = character := Option.some.inj first
              simp
        · rw [split]
          exact fun starts => same (take_eq_of_isPrefix starts fits)

/-- A piece is a whole word if it goes on no further behind the head. -/
theorem does_wordEnds {piece : List Char} (stands : tape.Stands tokens before piece rest)
    (inside : ∀ character ∈ piece, endsWord character = false) :
    Does wordEnds tape fun answer later =>
      (answer = true ↔ wordOf (piece ++ rest) = piece) ∧
        ∃ behind, later.Stands tokens before (wordOf (piece ++ rest)) behind := by
  have word : wordOf (piece ++ rest) = piece ++ wordOf rest :=
    List.takeWhile_append_of_pos (by simpa using inside)
  rw [wordEnds, word]
  apply (does_peek stands).bind
  rintro following second ⟨rfl, looked⟩
  by_cases ends : endsWord (rest.head?.getD endMark) = true
  · have nothing : wordOf rest = [] := by
      cases rest with
      | nil => rfl
      | cons character rest => exact List.takeWhile_cons_of_neg (by simpa using ends)
    rw [if_pos ends, nothing, List.append_nil]
    exact does_pure ⟨by simp, rest, looked⟩
  · have further : wordOf rest ≠ [] := by
      cases rest with
      | nil => exact (ends rfl).elim
      | cons character rest =>
          rw [wordOf, List.takeWhile_cons_of_pos (by simpa using ends)]
          exact List.cons_ne_nil _ _
    rw [if_neg ends]
    apply (does_pass .word looked).bind
    intro _ later passed
    exact does_pure ⟨by simpa using further, _, passed⟩

theorem does_endWord {matched : Bool} {last : Char}
    (compared : tape.Compared tokens before whole spelling matched last)
    (unbroken : ∀ character ∈ spelling, endsWord character = false) :
    Does (endWord matched last) tape fun answer later =>
      (answer = true ↔ wordOf whole = spelling) ∧
        ∃ behind, later.Stands tokens before (wordOf whole) behind := by
  cases compared with
  | same split stands =>
      rw [endWord, if_neg (by simp), split]
      apply (does_wordEnds stands unbroken).bind
      rintro ended later ⟨isWord, reached⟩
      exact does_pure ⟨by simpa using isWord, reached⟩
  | @differs front rest _ split inside wentOn met other =>
      have unlike : wordOf whole ≠ spelling := by
        rintro rfl
        exact other (wordOf_isPrefix whole)
      by_cases ends : endsWord last = true
      · have word : wordOf whole = front := by
          refine wordOf_eq_iff.mpr ⟨inside, rest, split, ?_⟩
          intro character first
          rwa [met character first]
        rw [endWord, if_pos ⟨rfl, ends⟩]
        apply (does_back wentOn).bind
        intro _ later returned
        exact does_pure ⟨by simpa using unlike, rest, word ▸ returned⟩
      · have insideToo : ∀ character ∈ front ++ rest.take 1, endsWord character = false := by
          refine List.forall_mem_append.mpr ⟨inside, ?_⟩
          cases rest with
          | nil => nofun
          | cons character rest => simpa [met character rfl] using ends
        have parts : whole = front ++ rest.take 1 ++ rest.drop 1 := by
          rw [split, List.append_assoc, List.take_append_drop]
        have walked := does_wordEnds wentOn.stands insideToo
        rw [← parts] at walked
        rw [endWord, if_neg (by simp [ends])]
        apply walked.bind
        rintro ended later ⟨-, reached⟩
        exact does_pure ⟨by simpa using unlike, reached⟩

/-- Whatever has chosen a keyword, the whole word decides, and the head ends up behind it. -/
theorem does_matchWord {passed : List Char}
    (chosen : tape.Chosen tokens before whole count passed) (fits : count ≤ spelling.length)
    (unbroken : ∀ character ∈ spelling, endsWord character = false) :
    Does (matchWord spelling count) tape fun answer later =>
      (answer = true ↔ wordOf whole = spelling) ∧
        ∃ behind, later.Stands tokens before (wordOf whole) behind :=
  (does_compareBehind chosen fits unbroken).bind fun _ _ compared =>
    does_endWord compared unbroken

theorem does_give (kind : Token.Kind) (next : Place)
    (stands : tape.Stands tokens before front rest) :
    Does (do emit kind; return some next) tape
      (Settles tokens before (.token kind front next)) :=
  (does_emit kind stands).bind fun _ _ emitted => does_pure (.token emitted)

theorem does_decline (fault : Fault) (stands : tape.Stands tokens before front rest) :
    Does (refuse fault) tape (Settles tokens before (.fault fault front)) := by
  apply (does_refuse fault stands).mono
  rintro _ refused ⟨rfl, declined⟩
  exact .fault declined

theorem does_declineWord (fault : Fault) (stands : tape.Stands tokens before front rest) :
    Does (do pass .word; refuse fault) tape
      (Settles tokens before (.fault fault (front ++ wordOf rest))) :=
  (does_pass .word stands).bind fun _ _ passed => does_decline fault passed

theorem readWord_of_word (isWord : wordOf whole = kind.spelling.toList) :
    readWord [(kind, next)] whole = .token kind (wordOf whole) next := by
  simp [readWord, findWord, isWord]

theorem readWord_of_other (unlike : wordOf whole ≠ kind.spelling.toList) :
    readWord [(kind, next)] whole = .fault .unknownWord (wordOf whole) := by
  simp [readWord, findWord, unlike.symm]

theorem does_keyword {passed : List Char} (keyword : kind.isKeyword = true)
    (chosen : tape.Chosen tokens before whole count passed)
    (fits : count ≤ kind.spelling.toList.length) :
    Does (Action.keyword kind count next) tape
      (Settles tokens before (readWord [(kind, next)] whole)) := by
  apply (does_matchWord chosen fits (not_endsWord_of_mem_spelling keyword)).bind
  rintro matched later ⟨same, behind, reached⟩
  by_cases isWord : wordOf whole = kind.spelling.toList
  · rw [if_pos (same.mpr isWord), readWord_of_word isWord]
    exact does_give kind next reached
  · rw [if_neg (mt same.mp isWord), readWord_of_other isWord]
    exact does_decline .unknownWord reached

/-- A text that can begin with one word of a list only is compared with that word alone. -/
theorem readWord_eq_of_only (findable : Findable words) (member : (kind, next) ∈ words)
    (only : ∀ entry ∈ words, entry.1.spelling.toList <+: whole → entry = (kind, next)) :
    readWord words whole = readWord [(kind, next)] whole := by
  by_cases isWord : wordOf whole = kind.spelling.toList
  · have found : findWord words (wordOf whole) = some (kind, next) :=
      isWord ▸ (findable _ member).2
    rw [readWord_of_word isWord, readWord, found]
  · have found : findWord words (wordOf whole) = none := by
      refine List.find?_eq_none.mpr fun entry inside spelled => isWord ?_
      have same : entry.1.spelling.toList = wordOf whole := eq_of_beq spelled
      obtain rfl := only entry inside (same ▸ wordOf_isPrefix whole)
      exact same.symm
    rw [readWord_of_other isWord, readWord, found]

/-- Once the first letters have chosen a word of a list, the text is compared with it only. -/
theorem does_oneOf (front : List Char) (wentOn : tape.WentOn tokens before front rest)
    (findable : Findable words) (member : (kind, next) ∈ words)
    (begins : front <+: kind.spelling.toList)
    (counted : count = front.length + 1) (fits : count ≤ kind.spelling.toList.length)
    (only : ∀ entry ∈ words, entry.1.spelling.toList <+: front ++ rest → entry = (kind, next)) :
    Does (Action.keyword kind count next) tape
      (Settles tokens before (readWord words (front ++ rest))) := by
  have keyword := (findable _ member).1
  have inside : ∀ character ∈ front, endsWord character = false :=
    fun character met => not_endsWord_of_mem_spelling keyword character (begins.subset met)
  rw [readWord_eq_of_only findable member only]
  subst counted
  exact does_keyword keyword (.behind rfl inside wentOn) fits

/-- The letters that have been met begin one word of a list, and can begin no other. -/
theorem does_begun {letter : Char} (front : List Char)
    (wentOn : tape.WentOn tokens before front (letter :: rest)) (findable : Findable words)
    (member : (kind, next) ∈ words) (begins : front ++ [letter] <+: kind.spelling.toList)
    (alone : ∀ entry ∈ words, front ++ [letter] <+: entry.1.spelling.toList ∨
      entry.1.spelling.toList <+: front ++ [letter] → entry = (kind, next))
    (counted : count = front.length + 1) :
    Does (Action.keyword kind count next) tape
      (Settles tokens before (readWord words (front ++ letter :: rest))) := by
  have fits : count ≤ kind.spelling.toList.length := by
    have longer := begins.length_le
    rwa [List.length_append, List.length_singleton, ← counted] at longer
  have letters : front ++ [letter] <+: front ++ letter :: rest := ⟨rest, by simp⟩
  apply does_oneOf front wentOn findable member ((List.prefix_append _ _).trans begins) counted fits
  intro entry inside starts
  exact alone entry inside (List.prefix_or_prefix_of_prefix letters starts)

theorem eq_cons_of_met {letter : Char} (met : letter = rest.head?.getD endMark)
    (inside : letter ≠ endMark) : ∃ later, rest = letter :: later := by
  cases rest with
  | nil => exact (inside met).elim
  | cons character later => exact ⟨later, congrArg (· :: later) met.symm⟩

theorem not_isPrefix_of_met {letter other : Char} {letters : List Char}
    (met : letter = rest.head?.getD endMark) (unlike : letter ≠ other) :
    ¬ other :: letters <+: rest := by
  rintro ⟨more, rfl⟩
  exact unlike met

theorem does_commandBehindSt (stands : tape.Stands tokens before ['s', 't'] rest) :
    Does commandBehindSt tape
      (Settles tokens before (readWord commandWords ('s' :: 't' :: rest))) := by
  apply (does_next stands).bind
  rintro third later ⟨met, wentOn⟩
  by_cases isA : third = 'a'
  · rw [if_pos isA]
    obtain ⟨rest, rfl⟩ := eq_cons_of_met met (isA ▸ by decide)
    subst isA
    have reached : later.Stands tokens before ['s', 't', 'a'] rest := wentOn.stands
    apply (does_next reached).bind
    rintro fourth last ⟨met, wentOn⟩
    by_cases isR : fourth = 'r'
    · rw [if_pos isR]
      obtain ⟨rest, rfl⟩ := eq_cons_of_met met (isR ▸ by decide)
      subst isR
      exact does_begun ['s', 't', 'a'] wentOn findable_commandWords (by decide) (by decide)
        (by decide) rfl
    · rw [if_neg isR]
      apply does_oneOf ['s', 't', 'a'] wentOn findable_commandWords (by decide) (by decide) rfl
        (by decide)
      simp [commandWords, Token.Kind.spelling, not_isPrefix_of_met met isR]
  · rw [if_neg isA]
    apply does_oneOf ['s', 't'] wentOn findable_commandWords (by decide) (by decide) rfl
      (by decide)
    simp [commandWords, Token.Kind.spelling, not_isPrefix_of_met met isA]

theorem does_commandBehindS (stands : tape.Stands tokens before ['s'] rest) :
    Does commandBehindS tape (Settles tokens before (readCommand ('s' :: rest))) := by
  apply (does_next stands).bind
  rintro second later ⟨met, wentOn⟩
  split
  · obtain ⟨rest, rfl⟩ := eq_cons_of_met met (by decide)
    exact does_begun ['s'] wentOn findable_commandWords (by decide) (by decide) (by decide) rfl
  · obtain ⟨rest, rfl⟩ := eq_cons_of_met met (by decide)
    exact does_begun ['s'] wentOn findable_commandWords (by decide) (by decide) (by decide) rfl
  · obtain ⟨rest, rfl⟩ := eq_cons_of_met met (by decide)
    exact does_commandBehindSt wentOn.stands
  · rename_i notE notU notT
    have reading : readCommand ('s' :: rest) = .fault .noCommand (['s'] ++ rest.take 1) := by
      cases rest with
      | nil => rfl
      | cons other rest =>
          obtain rfl : second = other := met
          rw [readCommand, someBeginsWith_s_commandWords, if_neg]
          · rfl
          · simpa using ⟨notT, notE, notU⟩
    rw [reading]
    exact does_decline .noCommand wentOn.stands

theorem does_commandBehindU (stands : tape.Stands tokens before ['u'] rest) :
    Does commandBehindU tape (Settles tokens before (readCommand ('u' :: rest))) := by
  apply (does_next stands).bind
  rintro second later ⟨met, wentOn⟩
  by_cases isP : second = 'p'
  · rw [if_pos isP]
    obtain ⟨rest, rfl⟩ := eq_cons_of_met met (isP ▸ by decide)
    subst isP
    exact does_begun ['u'] wentOn findable_commandWords (by decide) (by decide) (by decide) rfl
  · rw [if_neg isP]
    apply does_oneOf ['u'] wentOn findable_commandWords (by decide) (by decide) rfl (by decide)
    simp [commandWords, Token.Kind.spelling, not_isPrefix_of_met met isP]

theorem does_command (stands : tape.Stands tokens before [] rest) :
    Does command tape (Settles tokens (before ++ rest.takeWhile isBlank)
      (readCommand (rest.dropWhile isBlank))) := by
  apply (does_skipBlanks stands).bind
  intro _ skipped begun
  generalize rest.dropWhile isBlank = whole at begun ⊢
  apply (does_next begun).bind
  rintro first later ⟨met, wentOn⟩
  split
  · obtain ⟨rest, rfl⟩ := eq_cons_of_met met (by decide)
    exact does_commandBehindU wentOn.stands
  · obtain ⟨rest, rfl⟩ := eq_cons_of_met met (by decide)
    exact does_commandBehindS wentOn.stands
  · obtain ⟨rest, rfl⟩ := eq_cons_of_met met (by decide)
    exact does_begun [] wentOn findable_commandWords (by decide) (by decide) (by decide) rfl
  · obtain ⟨rest, rfl⟩ := eq_cons_of_met met (by decide)
    exact does_begun [] wentOn findable_commandWords (by decide) (by decide) (by decide) rfl
  · obtain ⟨rest, rfl⟩ := eq_cons_of_met met (by decide)
    exact does_begun [] wentOn findable_commandWords (by decide) (by decide) (by decide) rfl
  · obtain ⟨rest, rfl⟩ := eq_cons_of_met met (by decide)
    exact does_begun [] wentOn findable_commandWords (by decide) (by decide) (by decide) rfl
  · rename_i notU notS notI notD notH notM
    have reading : readCommand whole = .fault .noCommand (whole.take 1) := by
      cases whole with
      | nil => rfl
      | cons other rest =>
          obtain rfl : first = other := met
          rw [readCommand_of_other notS, someBeginsWith_commandWords notS, if_neg]
          · rfl
          · simpa using ⟨notH, notU, notI, notD, notM⟩
    rw [reading]
    exact does_decline .noCommand wentOn.stands

theorem does_bridgeAction {first : Char} (stands : tape.Stands tokens before [] (first :: rest)) :
    Does bridgeAction tape (Settles tokens before (readBridgeAction first rest)) := by
  apply (does_next_cons stands).bind
  rintro first later ⟨rfl, wentOn⟩
  split
  · exact does_begun [] wentOn findable_bridgeWords (by decide) (by decide) (by decide) rfl
  · exact does_begun [] wentOn findable_bridgeWords (by decide) (by decide) (by decide) rfl
  · exact does_begun [] wentOn findable_bridgeWords (by decide) (by decide) (by decide) rfl
  · exact does_begun [] wentOn findable_bridgeWords (by decide) (by decide) (by decide) rfl
  · rename_i notC notD notS notU
    rw [readBridgeAction, someBeginsWith_bridgeWords, if_neg]
    · exact does_declineWord .noBridgeAction wentOn.stands
    · simpa using ⟨notC, notD, notS, notU⟩

end Words

/-! ## Names, marks and values -/

section Goals

variable {tape : Tape text} {tokens : List PlacedToken} {before rest : List Char} {first : Char}

theorem does_name (next : Place) (stands : tape.Stands tokens before [] (first :: rest)) :
    Does (name next) tape (Settles tokens before (readName next first rest)) := by
  apply (does_next_cons stands).bind
  rintro first later ⟨rfl, wentOn⟩
  by_cases letter : isLetter first = true
  · rw [if_pos letter, readName, if_pos letter]
    exact (does_pass .name wentOn.stands).bind fun _ _ passed => does_give .name next passed
  · rw [if_neg letter, readName, if_neg letter]
    exact does_decline .noLetter wentOn.stands

theorem does_mark (symbol : Char) (kind : Token.Kind) (next : Place)
    (stands : tape.Stands tokens before [] (first :: rest)) :
    Does (mark symbol kind next) tape
      (Settles tokens before (readMark symbol kind next first)) := by
  apply (does_next_cons stands).bind
  rintro first later ⟨rfl, wentOn⟩
  by_cases same : first = symbol
  · rw [if_pos same, readMark, if_pos same]
    exact does_give kind next wentOn.stands
  · rw [if_neg same, readMark, if_neg same]
    exact does_decline (.otherMark symbol) wentOn.stands

theorem does_quoted (next : Place) (stands : tape.Stands tokens before [] (quoteMark :: rest)) :
    Does (quoted next) tape (Settles tokens before (readQuoted next rest)) := by
  apply (does_next_cons stands).bind
  rintro _ opened ⟨-, wentOn⟩
  apply (does_close wentOn.stands).bind
  rintro closed later ⟨rfl, behind, reached⟩
  rw [List.drop_one, List.tail_cons] at reached ⊢
  cases found : Quoted.closed? rest with
  | some part =>
      rw [found] at reached
      rw [readQuoted, found]
      exact does_give .string next reached
  | none =>
      rw [found] at reached
      rw [readQuoted, found]
      exact does_decline .unclosed reached

theorem does_value (next : Place) (stands : tape.Stands tokens before [] (first :: rest)) :
    Does (value next) tape (Settles tokens before (readValue next first rest)) := by
  rw [readValue]
  apply (does_peek stands).bind
  rintro following looked ⟨met, reached⟩
  obtain rfl : following = first := met
  by_cases opens : following = quoteMark
  · subst opens
    rw [if_pos rfl, if_pos rfl]
    exact does_quoted next reached
  · rw [if_neg opens, if_neg opens]
    apply (does_pass .bareValue reached).bind
    intro _ passed run
    apply does_get_bind
    by_cases ends : endsValue following = true
    · rw [CharRun.bareValue, List.takeWhile_cons_of_neg (by simpa using ends),
        List.dropWhile_cons_of_neg (by simpa using ends)] at run
      have empty : passed.head.start = passed.head.position := by
        rw [run.start, run.position]
        rfl
      rw [if_pos empty, if_pos ends]
      exact (does_next run).bind fun _ _ went => does_decline .noValue went.2.stands
    · rw [CharRun.bareValue, List.takeWhile_cons_of_pos (by simpa using ends)] at run
      have occupied : passed.head.start ≠ passed.head.position := by
        have longer := byteLength_pos (List.cons_ne_nil following (bareValueOf rest))
        rw [run.start, run.position]
        exact (Nat.lt_add_of_pos_right longer).ne
      rw [if_neg occupied, if_neg ends]
      exact does_give .value next run

theorem does_separator (item closed : Place)
    (stands : tape.Stands tokens before [] (first :: rest)) :
    Does (separator item closed) tape
      (Settles tokens before (readSeparator item closed first rest)) := by
  apply (does_next_cons stands).bind
  rintro first later ⟨rfl, wentOn⟩
  split
  · exact does_give .comma item wentOn.stands
  · exact does_give .rightParen closed wentOn.stands
  · rename_i noComma noParen
    rw [readSeparator, if_neg noComma, if_neg noParen]
    exact does_declineWord .noSeparator wentOn.stands

/-- Behind the blanks there is something to look for, or nothing is left. -/
theorem does_behindBlanks {look : Action text (Option Place)} (reads : List Char → Reading)
    (nothing : reads [] = .exhausted) (stands : tape.Stands tokens before [] rest)
    (looks : ∀ (first : Char) (others front : List Char) (skipped : Tape text),
      skipped.Stands tokens front [] (first :: others) →
      Does look skipped (Settles tokens front (reads (first :: others)))) :
    Does (behindBlanks look) tape
      (Settles tokens (before ++ rest.takeWhile isBlank) (reads (rest.dropWhile isBlank))) := by
  apply (does_skipBlanks stands).bind
  intro _ skipped begun
  generalize rest.dropWhile isBlank = whole at begun ⊢
  apply does_get_bind
  cases whole with
  | nil =>
      have ended : skipped.atEnd = true := begun.atEnd_eq
      rw [if_pos ended, nothing]
      exact does_pure (.exhausted begun)
  | cons first others =>
      have inside : ¬ skipped.atEnd = true := by
        rw [begun.atEnd_eq]
        exact Bool.false_ne_true
      rw [if_neg inside]
      exact looks first others _ skipped begun

theorem does_commaOrKeyword (item : Place) {kind : Token.Kind} (next : Place)
    (keyword : kind.isKeyword = true) (stands : tape.Stands tokens before [] rest) :
    Does (commaOrKeyword item kind next) tape (Settles tokens (before ++ rest.takeWhile isBlank)
      ((Goal.commaOrKeyword item kind next).read (rest.dropWhile isBlank))) := by
  apply (does_skipBlanks stands).bind
  intro _ skipped begun
  have unblank := List.head?_dropWhile_not isBlank rest
  generalize rest.dropWhile isBlank = whole at begun unblank ⊢
  generalize before ++ rest.takeWhile isBlank = front at begun ⊢
  apply (does_peek begun).bind
  rintro following looked ⟨met, reached⟩
  by_cases comma : following = ','
  · obtain ⟨later, rfl⟩ := eq_cons_of_met met (comma ▸ by decide)
    subst comma
    exact (does_next reached).bind fun _ _ went => does_give .comma item went.2.stands
  · have words := does_behindBlanks (Goal.keyword kind next).read rfl reached
      fun _ _ _ _ begun => does_keyword keyword (.atOnce begun) (Nat.zero_le _)
    rw [if_neg comma]
    cases whole with
    | nil =>
        rw [List.takeWhile_nil, List.append_nil] at words
        exact words
    | cons first others =>
        -- The blanks have been skipped already, so none are left to skip.
        obtain rfl : following = first := met
        rw [List.takeWhile_cons_of_neg (by simpa using unblank), List.append_nil,
          List.dropWhile_cons_of_neg (by simpa using unblank)] at words
        rw [Goal.read, if_neg comma]
        exact words

/-- Looking for what a goal says settles what is read behind the blanks. -/
theorem does_look {goal : Goal} (sound : goal.Sound) (stands : tape.Stands tokens before [] rest) :
    Does goal.look tape (Settles tokens (before ++ rest.takeWhile isBlank)
      (goal.read (rest.dropWhile isBlank))) := by
  cases goal with
  | command => exact does_command stands
  | bridgeAction =>
      exact does_behindBlanks Goal.bridgeAction.read rfl stands
        fun _ _ _ _ begun => does_bridgeAction begun
  | keyword kind next =>
      exact does_behindBlanks (Goal.keyword kind next).read rfl stands
        fun _ _ _ _ begun => does_keyword sound (.atOnce begun) (Nat.zero_le _)
  | name next =>
      exact does_behindBlanks (Goal.name next).read rfl stands
        fun _ _ _ _ begun => does_name next begun
  | mark symbol kind next =>
      exact does_behindBlanks (Goal.mark symbol kind next).read rfl stands
        fun _ _ _ _ begun => does_mark symbol kind next begun
  | value next =>
      exact does_behindBlanks (Goal.value next).read rfl stands
        fun _ _ _ _ begun => does_value next begun
  | separator item closed =>
      exact does_behindBlanks (Goal.separator item closed).read rfl stands
        fun _ _ _ _ begun => does_separator item closed begun
  | commaOrKeyword item kind next => exact does_commaOrKeyword item next sound stands
  | nothing =>
      exact does_behindBlanks Goal.nothing.read rfl stands
        fun _ _ _ _ begun => does_declineWord .unknownWord begun

end Goals

end TableFeed
