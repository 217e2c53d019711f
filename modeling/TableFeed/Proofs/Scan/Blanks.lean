import TableFeed.Proofs.Scan.Course

/-!
# Blanks around a text

Blanks in front of a text only move its tokens. Blanks behind it add nothing, because no token and
no fault goes on with a blank. Two faults are the exceptions: a command that stops behind an `s`,
and a quoted value that is not closed. Their messages go on with the blanks. The main statements say
both about the tokens of a scan.
-/

namespace TableFeed

/-- The cursor with some more bytes in front of it. -/
def Cursor.shift (count : Nat) (cursor : Cursor) : Cursor where
  position := count + cursor.position
  rest := cursor.rest

/-- The token with some more bytes in front of it. -/
def PlacedToken.shift (count : Nat) (placed : PlacedToken) : PlacedToken where
  token := placed.token
  position := placed.position.map (count + ·)

/-- The reading with some more characters in the text of its fault. -/
def Reading.spill (spilled : List Char) : Reading → Reading
  | .fault found lexeme => .fault found (lexeme ++ spilled)
  | reading => reading

/-- The token with some more characters in its message, if it reports a fault. -/
def Token.spill (spilled : List Char) (token : Token) : Token :=
  if token.kind = .error then ⟨.error, token.text ++ String.ofList spilled⟩ else token

namespace Scanner

/-- The scanner with some more bytes in front of it. -/
def shift (count : Nat) (scanner : Scanner) : Scanner where
  cursor := scanner.cursor.shift count
  phase := scanner.phase

theorem readAt_shift (count : Nat) (place : Place) (cursor : Cursor) :
    readAt place (cursor.shift count) =
      ((readAt place cursor).1.shift count, (readAt place cursor).2.shift count) := by
  unfold readAt
  cases reading : place.goal.read cursor.rest <;>
    simp [Cursor.shift, reading, tokenAt, errorToken, endingAt, PlacedToken.shift, shift,
      Cursor.advance, Nat.add_assoc]

theorem next?_shift (count : Nat) (scanner : Scanner) :
    (scanner.shift count).next? =
      scanner.next?.map fun found => (found.1.shift count, found.2.shift count) := by
  obtain ⟨cursor, phase⟩ := scanner
  cases phase with
  | reading place =>
      have skipped : (cursor.shift count).skipBlanks = cursor.skipBlanks.shift count := by
        simp [Cursor.shift, Cursor.skipBlanks, Cursor.advance, Nat.add_assoc]
      change some (readAt place (cursor.shift count).skipBlanks) = _
      rw [skipped, readAt_shift]
      rfl
  | closing => rfl
  | finished => rfl

/-- A scanner with more bytes in front of it hands out the same tokens, further on. -/
theorem tokens_shift (count : Nat) (scanner : Scanner) :
    (scanner.shift count).tokens = scanner.tokens.map (PlacedToken.shift count) := by
  induction scanner using tokens.induct with
  | case1 scanner stopped =>
      have shiftedStopped : (scanner.shift count).next? = none := by
        rw [next?_shift, stopped, Option.map_none]
      rw [tokens_of_none stopped, tokens_of_none shiftedStopped, List.map_nil]
  | case2 scanner placed later step ih =>
      have shiftedStep : (scanner.shift count).next? =
          some (placed.shift count, later.shift count) := by
        rw [next?_shift, step, Option.map_some]
      rw [tokens_of_next? step, tokens_of_next? shiftedStep, ih, List.map_cons]

end Scanner

variable {text blanks : List Char}

section Runs

theorem takeWhile_append_blank {belongs : Char → Bool}
    (outside : ∀ character, isBlank character = true → belongs character = false)
    (blank : Blank blanks) : (text ++ blanks).takeWhile belongs = text.takeWhile belongs := by
  have nothing : blanks.takeWhile belongs = [] := by
    cases blanks with
    | nil => rfl
    | cons character blanks =>
        exact List.takeWhile_cons_of_neg (by simp [outside character (blank _ List.mem_cons_self)])
  rw [List.takeWhile_append, nothing, List.append_nil]
  split
  · rename_i whole
    exact ((List.takeWhile_prefix belongs).eq_of_length whole).symm
  · rfl

theorem endsWord_of_isBlank {character : Char} (blank : isBlank character = true) :
    endsWord character = true := by
  rw [endsWord, blank, Bool.true_or]

theorem endsValue_of_endsWord {character : Char} (ends : endsWord character = true) :
    endsValue character = true := by
  simp [endsValue, ends]

theorem wordOf_append_blank (blank : Blank blanks) : wordOf (text ++ blanks) = wordOf text :=
  takeWhile_append_blank (fun _ isBlank => by simp [endsWord_of_isBlank isBlank]) blank

theorem bareValueOf_append_blank (blank : Blank blanks) :
    bareValueOf (text ++ blanks) = bareValueOf text :=
  takeWhile_append_blank
    (fun _ isBlank => by simp [endsValue_of_endsWord (endsWord_of_isBlank isBlank)]) blank

theorem quoteMark_not_mem (blank : Blank blanks) : quoteMark ∉ blanks := by
  have outside : isBlank quoteMark = false := by
    decide
  intro member
  rw [blank _ member] at outside
  nomatch outside

/-- Nothing without a quotation mark closes a quoted value. -/
theorem closed?_append (noMark : quoteMark ∉ blanks) :
    Quoted.closed? (text ++ blanks) = Quoted.closed? text := by
  fun_induction Quoted.closed? text with
  | case1 later ih => rw [List.cons_append, List.cons_append, Quoted.closed?, ih]
  | case2 later unpaired =>
      have ends : (later ++ blanks).head? ≠ some quoteMark := by
        intro paired
        cases later with
        | nil => exact noMark (List.mem_of_mem_head? paired)
        | cons character later =>
            obtain rfl := Option.some.inj paired
            exact unpaired later rfl
      exact Quoted.closed?_double [] ends
  | case3 character later _ different ih =>
      rw [List.cons_append, Quoted.closed?_cons different, ih]
  | case4 =>
      rw [List.nil_append]
      induction blanks with
      | nil => rfl
      | cons character blanks ih =>
          rw [List.mem_cons, not_or] at noMark
          obtain ⟨different, others⟩ := noMark
          rw [Quoted.closed?_cons (Ne.symm different), ih others]
          rfl

end Runs

section Readings

theorem Reading.spill_nil (reading : Reading) : reading.spill [] = reading := by
  cases reading <;> simp [spill]

theorem readWord_append_blank (words : List (Token.Kind × Place)) (blank : Blank blanks) :
    readWord words (text ++ blanks) = readWord words text := by
  rw [readWord, readWord, wordOf_append_blank blank]

/-- The letters with which a keyword begins end no word. -/
theorem not_endsWord_of_someBeginsWith {words : List (Token.Kind × Place)} {letters : List Char}
    (findable : Findable words) (begins : someBeginsWith words letters = true) :
    ∀ letter ∈ letters, endsWord letter = false := by
  obtain ⟨entry, member, isPrefix⟩ := List.any_eq_true.mp begins
  intro letter inside
  exact not_endsWord_of_mem_spelling (findable entry member).1 letter
    ((List.isPrefixOf_iff_prefix.mp isPrefix).subset inside)

theorem readCommand_of_other {first : Char} (other : first ≠ 's') (later : List Char) :
    readCommand (first :: later) =
      if someBeginsWith commandWords [first] then readWord commandWords (first :: later)
      else .fault .noCommand [first] := by
  rw [readCommand]
  · rintro rfl
    exact fun _ => other rfl
  · rintro _ _ rfl
    exact fun _ => other rfl

theorem readCommand_append_blank (occupied : text ≠ []) (blank : Blank blanks) :
    ∃ spilled, spilled <+: blanks ∧
      readCommand (text ++ blanks) = (readCommand text).spill spilled := by
  obtain ⟨first, later, rfl⟩ := List.exists_cons_of_ne_nil occupied
  by_cases isS : first = 's'
  · subst first
    rcases later with _ | ⟨second, later⟩
    · cases blanks with
      | nil => exact ⟨[], List.nil_prefix, rfl⟩
      | cons character blanks =>
          have begins : ¬ someBeginsWith commandWords ['s', character] = true := by
            intro begins
            have inside := not_endsWord_of_someBeginsWith findable_commandWords begins character
              (by simp)
            rw [endsWord_of_isBlank (blank _ List.mem_cons_self)] at inside
            nomatch inside
          refine ⟨[character], List.prefix_append [character] blanks, ?_⟩
          exact if_neg begins
    · refine ⟨[], List.nil_prefix, ?_⟩
      rw [Reading.spill_nil, List.cons_append, List.cons_append, readCommand, readCommand,
        ← List.cons_append, ← List.cons_append, readWord_append_blank commandWords blank]
  · refine ⟨[], List.nil_prefix, ?_⟩
    rw [Reading.spill_nil, List.cons_append, readCommand_of_other isS, readCommand_of_other isS,
      ← List.cons_append, readWord_append_blank commandWords blank]

theorem readQuoted_append_blank (next : Place) (blank : Blank blanks) :
    ∃ spilled, spilled <+: blanks ∧
      readQuoted next (text ++ blanks) = (readQuoted next text).spill spilled := by
  rw [readQuoted, readQuoted, closed?_append (quoteMark_not_mem blank)]
  cases Quoted.closed? text with
  | none => exact ⟨blanks, List.prefix_rfl, rfl⟩
  | some part => exact ⟨[], List.nil_prefix, rfl⟩

theorem readValue_append_blank (next : Place) (first : Char) (blank : Blank blanks) :
    ∃ spilled, spilled <+: blanks ∧
      readValue next first (text ++ blanks) = (readValue next first text).spill spilled := by
  unfold readValue
  split
  · exact readQuoted_append_blank next blank
  · refine ⟨[], List.nil_prefix, ?_⟩
    rw [Reading.spill_nil, bareValueOf_append_blank blank]

/-- Blanks behind a text change no reading, except that the text of a fault may go on with some of
them. -/
theorem Goal.read_append_blank (goal : Goal) (occupied : text ≠ []) (blank : Blank blanks) :
    ∃ spilled, spilled <+: blanks ∧
      goal.read (text ++ blanks) = (goal.read text).spill spilled := by
  have same : goal.read (text ++ blanks) = goal.read text → ∃ spilled, spilled <+: blanks ∧
      goal.read (text ++ blanks) = (goal.read text).spill spilled := by
    intro same
    exact ⟨[], List.nil_prefix, by rw [Reading.spill_nil, same]⟩
  obtain ⟨first, later, rfl⟩ := List.exists_cons_of_ne_nil occupied
  have words : ∀ words, readWord words (first :: (later ++ blanks)) =
      readWord words (first :: later) := by
    intro words
    rw [← List.cons_append, readWord_append_blank words blank]
  cases goal with
  | command => exact readCommand_append_blank occupied blank
  | bridgeAction =>
      apply same
      change readBridgeAction first (later ++ blanks) = readBridgeAction first later
      rw [readBridgeAction, readBridgeAction, words, wordOf_append_blank blank]
  | keyword kind next => exact same (words _)
  | name next =>
      apply same
      change readName next first (later ++ blanks) = readName next first later
      rw [readName, readName,
        takeWhile_append_blank (fun _ => not_isLetterOrDigit_of_isBlank) blank]
  | mark symbol kind next => exact same rfl
  | value next => exact readValue_append_blank next first blank
  | separator item closed =>
      apply same
      change readSeparator item closed first (later ++ blanks) =
        readSeparator item closed first later
      rw [readSeparator, readSeparator, wordOf_append_blank blank]
  | commaOrKeyword item kind next =>
      apply same
      change (if first = ',' then _ else readWord _ (first :: (later ++ blanks))) = _
      rw [words]
      rfl
  | nothing => exact same (congrArg (Reading.fault .unknownWord) (wordOf_append_blank blank))

end Readings

section Tokens

theorem dropWhile_append_of_occupied (occupied : text.dropWhile isBlank ≠ []) :
    (text ++ blanks).dropWhile isBlank = text.dropWhile isBlank ++ blanks := by
  rw [List.dropWhile_append, if_neg]
  rwa [List.isEmpty_iff]

theorem spill_of_ne_error {token : Token} (sound : token.kind ≠ .error) (spilled : List Char) :
    token.spill spilled = token :=
  if_neg sound

theorem map_spill_of_sound {tokens : List Token} (sound : ∀ token ∈ tokens, token.kind ≠ .error)
    (spilled : List Char) : tokens.map (Token.spill spilled) = tokens :=
  (List.map_congr_left fun token member => spill_of_ne_error (sound token member) spilled).trans
    (List.map_id tokens)

/-- Blanks behind a text add nothing to its tokens, except that the message about a fault may go on
with some of them. -/
theorem Scanner.tokensAt_append_blank (place : Place) (blank : Blank blanks)
    {cursor alone : Cursor} (isText : alone.rest = text) (padded : cursor.rest = text ++ blanks) :
    ∃ spilled, spilled <+: blanks ∧
      tokensAt place cursor = (tokensAt place alone).map (Token.spill spilled) := by
  induction length : text.length using Nat.strong_induction_on
    generalizing place text cursor alone with
  | _ count ih =>
      rw [tokensAt_eq, tokensAt_eq, isText, padded]
      by_cases nothing : text.dropWhile isBlank = []
      · have allBlank : (text ++ blanks).dropWhile isBlank = [] := by
          rw [List.dropWhile_append, nothing, List.isEmpty_nil, if_pos rfl]
          exact List.dropWhile_eq_nil_iff.mpr blank
        refine ⟨[], List.nil_prefix, ?_⟩
        rw [nothing, allBlank]
        cases reading : place.goal.read [] with
        | token kind lexeme next => exact (Goal.text_ne_nil_of_read reading rfl).elim
        | fault fault lexeme => simp [Token.spill, Token.ending]
        | exhausted => rfl
      · obtain ⟨spilled, isPrefix, same⟩ := place.goal.read_append_blank nothing blank
        rw [dropWhile_append_of_occupied nothing, same]
        cases reading : place.goal.read (text.dropWhile isBlank) with
        | token kind lexeme next =>
            obtain ⟨takes, -, later, split, -⟩ := (Goal.read_eq_token place.goal_sound).mp reading
            have skippedAlone : alone.skipBlanks.rest = lexeme ++ later := by
              rw [Cursor.skipBlanks_rest, isText, split]
            have behindAlone := Cursor.advance_rest_of_append skippedAlone
            have shorter : later.length < count := by
              rw [← isText, ← Cursor.skipBlanks_rest] at reading
              have fewer := rest_length_lt reading
              rwa [behindAlone, isText, length] at fewer
            have skipped : cursor.skipBlanks.rest = lexeme ++ (later ++ blanks) := by
              rw [Cursor.skipBlanks_rest, padded, dropWhile_append_of_occupied nothing, split,
                List.append_assoc]
            obtain ⟨further, isPrefix, others⟩ := ih later.length shorter next behindAlone
              (Cursor.advance_rest_of_append skipped) rfl
            have sound := (takes.isToken place.goal_sound).2
            have here : Token.spill further ⟨kind, String.ofList lexeme⟩ =
                ⟨kind, String.ofList lexeme⟩ := spill_of_ne_error sound further
            refine ⟨further, isPrefix, ?_⟩
            simp only [Reading.spill, others, List.map_cons, here]
        | fault fault lexeme =>
            refine ⟨spilled, isPrefix, ?_⟩
            simp [Reading.spill, Token.spill, Fault.message, Token.ending, String.append_assoc]
        | exhausted => exact ⟨[], List.nil_prefix, rfl⟩

theorem skipBlanks_append (blank : Blank blanks) (position : Nat) (rest : List Char) :
    (Cursor.mk position (blanks ++ rest)).skipBlanks =
      (Cursor.mk (position + byteLength blanks) rest).skipBlanks := by
  simp only [Cursor.skipBlanks, Cursor.advance, List.takeWhile_append_of_pos blank,
    List.length_append, List.take_length_add_append, List.drop_length_add_append,
    byteLength_append, Nat.add_assoc]

/-- Blanks in front of a text move its tokens by as many bytes as they have. -/
theorem scan_blank_append {before : String} (blank : Blank before.toList) (text : String) :
    scan (before ++ text) = (scan text).map (PlacedToken.shift before.utf8ByteSize) := by
  have skipped := skipBlanks_append blank 0 text.toList
  have size : byteLength before.toList = before.utf8ByteSize := by
    rw [byteLength_eq, String.ofList_toList]
  rw [Nat.zero_add, size] at skipped
  have start : ∀ cursor : Cursor, (Scanner.mk cursor (.reading .start)).next? =
      some (Scanner.readAt .start cursor.skipBlanks) := fun _ => rfl
  have moved : (Scanner.ofText text).shift before.utf8ByteSize =
      ⟨⟨before.utf8ByteSize, text.toList⟩, .reading .start⟩ := rfl
  rw [scan, scan, ← Scanner.tokens_shift, moved, Scanner.tokens_of_next? (start _), Scanner.ofText,
    Cursor.atStart, String.toList_append, Scanner.tokens_of_next? (start _), skipped]

/-- Blanks behind a text add nothing to its tokens, except that the message about a fault may go on
with some of them. -/
theorem tokensOf_append_blank (text : String) {behind : String} (blank : Blank behind.toList) :
    ∃ spilled, spilled <+: behind.toList ∧
      tokensOf (text ++ behind) = (tokensOf text).map (Token.spill spilled) :=
  Scanner.tokensAt_append_blank .start blank rfl String.toList_append

theorem tokensOf_blank_append {before : String} (blank : Blank before.toList) (text : String) :
    tokensOf (before ++ text) = tokensOf text := by
  rw [tokensOf, scan_blank_append blank, List.map_map]
  rfl

end Tokens

end TableFeed
