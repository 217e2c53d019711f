import TableFeed.Proofs.Scan.Blanks
import TableFeed.Proofs.Scan.Tiling

/-!
# Texts that are cut short

A scanner looks at no more than one character behind the token that it reads. So a text that is cut
short keeps the tokens that end in front of the cut, and a fault that is closed in front of the cut
stays the same fault. The main statement says so for every text and every cut. It also says that a
text which is cut at the end of a token ends there without a fault.
-/

namespace TableFeed

/-- The characters that a reading takes from the front of the text. -/
def Reading.taken : Reading → List Char
  | token _ lexeme _ => lexeme
  | fault _ lexeme => lexeme
  | exhausted => []

/-- The readings of a text and of the part of it in front of a cut are the same, or both of them
reach the cut. -/
def Reading.Agrees (seen : List Char) (whole alone : Reading) : Prop :=
  whole = alone ∨ (seen <+: whole.taken ∧ seen <+: alone.taken)

/-- The position at the end of the text. -/
def Cursor.stop (cursor : Cursor) : Nat :=
  cursor.position + byteLength cursor.rest

/-- A cursor stands where another one does, in a text that goes on with more characters. -/
structure Cursor.Extends (later : List Char) (whole alone : Cursor) : Prop where
  position : whole.position = alone.position
  rest : whole.rest = alone.rest ++ later

/-- The position behind a token. The end of a command takes no room. -/
def PlacedToken.stop (placed : PlacedToken) : Nat :=
  placed.position.getD 0 + placed.token.text.utf8ByteSize

/-- Each of the tokens reports a fault or reaches the given position. -/
def Late (bound : Nat) (tokens : List PlacedToken) : Prop :=
  ∀ placed ∈ tokens, placed.token.kind = .error ∨ bound ≤ placed.stop

/-- The tokens of a text and of the part of it in front of a cut are the same, as far as they do not
reach the cut. -/
inductive AgreeUpTo (bound : Nat) : List PlacedToken → List PlacedToken → Prop
  | same (tokens : List PlacedToken) : AgreeUpTo bound tokens tokens
  | token {placed : PlacedToken} {whole alone : List PlacedToken}
      (inside : placed.token.kind ≠ .endOfInput) (others : AgreeUpTo bound whole alone) :
      AgreeUpTo bound (placed :: whole) (placed :: alone)
  | late {whole alone : List PlacedToken} (wholeLate : Late bound whole)
      (aloneLate : Late bound alone) : AgreeUpTo bound whole alone

/-- What a cut leaves of the tokens of a text: the tokens in front of it, with their indices. Where
the end of the command is reported in front of the cut, which happens behind a fault only, the cut
changes nothing. A cut at the end of a token leaves no fault. -/
structure Stable (seen later : String) : Prop where
  kept : ∀ (index : Nat) (placed : PlacedToken), placed.token.kind ≠ .error →
    placed.stop < seen.utf8ByteSize →
    ((scan (seen ++ later))[index]? = some placed ↔ (scan seen)[index]? = some placed)
  closed : ∀ ending ∈ scan (seen ++ later), ending.token.kind = .endOfInput →
    ending.stop < seen.utf8ByteSize → scan seen = scan (seen ++ later)
  quiet : ∀ front placed back, scan (seen ++ later) = front ++ placed :: back →
    placed.token.kind ≠ .error → placed.token.kind ≠ .endOfInput →
    placed.stop = seen.utf8ByteSize →
    scan seen = front ++ [placed, ⟨.ending, some seen.utf8ByteSize⟩] ∧
      ∀ other ∈ scan seen, other.token.kind ≠ .error

section Readings

variable {seen : List Char} {first : Char}

theorem Reading.Agrees.refl {reading : Reading} : Reading.Agrees seen reading reading :=
  Or.inl rfl

/-- A run of characters ends in front of the cut, or it reaches the cut. -/
theorem takeWhile_append_cases (belongs : Char → Bool) (seen later : List Char) :
    (seen ++ later).takeWhile belongs = seen.takeWhile belongs ∨
      (seen <+: (seen ++ later).takeWhile belongs ∧ seen <+: seen.takeWhile belongs) := by
  rw [List.takeWhile_append]
  split
  · rename_i reaches
    have whole := (List.takeWhile_prefix belongs).eq_of_length reaches
    exact Or.inr ⟨List.prefix_append _ _, whole.symm ▸ List.prefix_rfl⟩
  · exact Or.inl rfl

theorem agrees_of_run (first : Char) (make : List Char → Reading)
    (takes : ∀ run, (make run).taken = first :: run) (belongs : Char → Bool)
    (seen later : List Char) :
    Reading.Agrees (first :: seen) (make ((seen ++ later).takeWhile belongs))
      (make (seen.takeWhile belongs)) := by
  rcases takeWhile_append_cases belongs seen later with same | ⟨whole, alone⟩
  · exact Or.inl (congrArg make same)
  · refine Or.inr ⟨?_, ?_⟩
    · rw [takes]
      exact (List.prefix_cons_inj first).mpr whole
    · rw [takes]
      exact (List.prefix_cons_inj first).mpr alone

theorem readWord_taken (words : List (Token.Kind × Place)) (text : List Char) :
    (readWord words text).taken = wordOf text := by
  unfold readWord
  split
  · rfl
  · rfl

theorem readWord_agrees (words : List (Token.Kind × Place)) (seen later : List Char) :
    Reading.Agrees seen (readWord words (seen ++ later)) (readWord words seen) := by
  rcases takeWhile_append_cases (fun character => !endsWord character) seen later with
    same | reaches
  · have sameWord : wordOf (seen ++ later) = wordOf seen := same
    left
    rw [readWord, readWord, sameWord]
  · right
    rw [readWord_taken, readWord_taken]
    exact reaches

theorem isPrefix_taken_readWord (words : List (Token.Kind × Place))
    (inside : endsWord first = false) (rest : List Char) :
    [first] <+: (readWord words (first :: rest)).taken := by
  have word : wordOf (first :: rest) = first :: wordOf rest :=
    List.takeWhile_cons_of_pos (by simp [inside])
  rw [readWord_taken, word]
  exact List.prefix_append [first] _

theorem readCommand_agrees (occupied : seen ≠ []) (later : List Char) :
    Reading.Agrees seen (readCommand (seen ++ later)) (readCommand seen) := by
  obtain ⟨first, rest, rfl⟩ := List.exists_cons_of_ne_nil occupied
  by_cases isS : first = 's'
  · subst first
    cases rest with
    | nil =>
        refine Or.inr ⟨?_, List.prefix_rfl⟩
        cases later with
        | nil => exact List.prefix_rfl
        | cons second later =>
            rw [List.cons_append, List.nil_append, readCommand]
            split
            · exact isPrefix_taken_readWord commandWords (by decide +kernel) _
            · exact List.prefix_append ['s'] [second]
    | cons second rest =>
        rw [List.cons_append, List.cons_append, readCommand, readCommand]
        split
        · exact readWord_agrees commandWords ('s' :: second :: rest) later
        · exact .refl
  · rw [List.cons_append, readCommand_of_other isS, readCommand_of_other isS]
    split
    · exact readWord_agrees commandWords (first :: rest) later
    · exact .refl

theorem readBridgeAction_agrees (first : Char) (rest later : List Char) :
    Reading.Agrees (first :: rest) (readBridgeAction first (rest ++ later))
      (readBridgeAction first rest) := by
  unfold readBridgeAction
  split
  · exact readWord_agrees bridgeWords (first :: rest) later
  · exact agrees_of_run first (fun run => .fault .noBridgeAction (first :: run)) (fun _ => rfl) _
      rest later

theorem readName_agrees (next : Place) (first : Char) (rest later : List Char) :
    Reading.Agrees (first :: rest) (readName next first (rest ++ later))
      (readName next first rest) := by
  unfold readName
  split
  · exact agrees_of_run first (fun run => .token .name (first :: run) next) (fun _ => rfl) _ rest
      later
  · exact .refl

theorem isPrefix_closed? (later : List Char) :
    [quoteMark] <+: (Quoted.closed? (quoteMark :: later)).getD (quoteMark :: later) := by
  cases found : Quoted.closed? (quoteMark :: later) with
  | none => exact List.prefix_append [quoteMark] later
  | some part =>
      obtain ⟨value, rest, split, rfl, -⟩ := Quoted.doubled_of_closed? found
      cases inner : Quoted.double value with
      | nil => exact List.prefix_rfl
      | cons character others =>
          rw [inner, List.cons_append] at split
          obtain ⟨rfl, -⟩ := List.cons.inj split
          exact List.prefix_append [quoteMark] _

theorem isPrefix_getD_map (start : List Char) {text : List Char} {found : Option (List Char)}
    (reaches : seen <+: found.getD text) :
    start ++ seen <+: (found.map (start ++ ·)).getD (start ++ text) := by
  rw [Option.getD_map (start ++ ·)]
  exact (List.prefix_append_right_inj start).mpr reaches

/-- A quoted value is closed in front of the cut, or it reaches the cut. -/
theorem closed?_append_cases (seen later : List Char) :
    (∃ part, Quoted.closed? (seen ++ later) = some part ∧ Quoted.closed? seen = some part) ∨
      (seen <+: (Quoted.closed? (seen ++ later)).getD (seen ++ later) ∧
        seen <+: (Quoted.closed? seen).getD seen) := by
  fun_induction Quoted.closed? seen with
  | case1 others ih =>
      rw [List.cons_append, List.cons_append, Quoted.closed?]
      rcases ih with ⟨part, whole, alone⟩ | ⟨whole, alone⟩
      · exact Or.inl ⟨_, by rw [whole, Option.map_some], by rw [alone, Option.map_some]⟩
      · exact Or.inr ⟨isPrefix_getD_map [quoteMark, quoteMark] whole,
          isPrefix_getD_map [quoteMark, quoteMark] alone⟩
  | case2 others unpaired =>
      cases others with
      | nil => exact Or.inr ⟨isPrefix_closed? later, List.prefix_rfl⟩
      | cons character others =>
          refine Or.inl ⟨[quoteMark], Quoted.closed?_double [] ?_, rfl⟩
          intro paired
          obtain rfl := Option.some.inj paired
          exact unpaired others rfl
  | case3 character others _ different ih =>
      rw [List.cons_append, Quoted.closed?_cons different]
      rcases ih with ⟨part, whole, alone⟩ | ⟨whole, alone⟩
      · exact Or.inl ⟨_, by rw [whole, Option.map_some], by rw [alone, Option.map_some]⟩
      · exact Or.inr ⟨isPrefix_getD_map [character] whole, isPrefix_getD_map [character] alone⟩
  | case4 => exact Or.inr ⟨List.nil_prefix, List.nil_prefix⟩

theorem readQuoted_agrees (next : Place) (rest later : List Char) :
    Reading.Agrees (quoteMark :: rest) (readQuoted next (rest ++ later))
      (readQuoted next rest) := by
  have takes : ∀ text, (readQuoted next text).taken =
      quoteMark :: (Quoted.closed? text).getD text := by
    intro text
    unfold readQuoted
    cases Quoted.closed? text <;> rfl
  rcases closed?_append_cases rest later with ⟨part, whole, alone⟩ | ⟨whole, alone⟩
  · left
    rw [readQuoted, readQuoted, whole, alone]
  · right
    rw [takes, takes]
    exact ⟨(List.prefix_cons_inj quoteMark).mpr whole, (List.prefix_cons_inj quoteMark).mpr alone⟩

theorem readValue_agrees (next : Place) (first : Char) (rest later : List Char) :
    Reading.Agrees (first :: rest) (readValue next first (rest ++ later))
      (readValue next first rest) := by
  unfold readValue
  split
  · rename_i quoted
    subst quoted
    exact readQuoted_agrees next rest later
  · split
    · exact .refl
    · exact agrees_of_run first (fun run => .token .value (first :: run) next) (fun _ => rfl) _
        rest later

theorem readSeparator_agrees (item closed : Place) (first : Char) (rest later : List Char) :
    Reading.Agrees (first :: rest) (readSeparator item closed first (rest ++ later))
      (readSeparator item closed first rest) := by
  unfold readSeparator
  split
  · exact .refl
  · split
    · exact .refl
    · exact agrees_of_run first (fun run => .fault .noSeparator (first :: run)) (fun _ => rfl) _
        rest later

/-- What is read at the front of a text does not depend on what comes behind a cut, unless the
reading reaches the cut. -/
theorem Goal.read_agrees (goal : Goal) (occupied : seen ≠ []) (later : List Char) :
    Reading.Agrees seen (goal.read (seen ++ later)) (goal.read seen) := by
  obtain ⟨first, rest, rfl⟩ := List.exists_cons_of_ne_nil occupied
  cases goal with
  | command => exact readCommand_agrees occupied later
  | bridgeAction => exact readBridgeAction_agrees first rest later
  | keyword kind next => exact readWord_agrees _ (first :: rest) later
  | name next => exact readName_agrees next first rest later
  | mark symbol kind next => exact .refl
  | value next => exact readValue_agrees next first rest later
  | separator item closed => exact readSeparator_agrees item closed first rest later
  | commaOrKeyword item kind next =>
      rw [List.cons_append, read, read]
      split
      · exact .refl
      · exact readWord_agrees _ (first :: rest) later
  | nothing =>
      rcases takeWhile_append_cases _ (first :: rest) later with same | reaches
      · exact Or.inl (congrArg (Reading.fault .unknownWord) same)
      · exact Or.inr reaches

end Readings

namespace Cursor

variable {later : List Char} {whole alone : Cursor}

theorem advance_stop (cursor : Cursor) (count : Nat) :
    (cursor.advance count).stop = cursor.stop := by
  have split := congrArg byteLength (List.take_append_drop count cursor.rest)
  rw [byteLength_append] at split
  rw [stop, stop, ← split, ← Nat.add_assoc]
  rfl

theorem skipBlanks_stop (cursor : Cursor) : cursor.skipBlanks.stop = cursor.stop :=
  advance_stop cursor _

theorem Extends.advance {count : Nat} (goesOn : Extends later whole alone)
    (inside : count ≤ alone.rest.length) :
    Extends later (whole.advance count) (alone.advance count) where
  position := by
    rw [Cursor.advance, Cursor.advance, goesOn.position, goesOn.rest,
      List.take_append_of_le_length inside]
  rest := by
    rw [advance_rest, advance_rest, goesOn.rest, List.drop_append_of_le_length inside]

theorem Extends.skipBlanks (goesOn : Extends later whole alone)
    (occupied : alone.rest.dropWhile isBlank ≠ []) :
    Extends later whole.skipBlanks alone.skipBlanks := by
  have sameBlanks : whole.rest.takeWhile isBlank = alone.rest.takeWhile isBlank := by
    rw [goesOn.rest, List.takeWhile_append, if_neg]
    intro reaches
    have cut := List.takeWhile_append_dropWhile (p := isBlank) (l := alone.rest)
    rw [(List.takeWhile_prefix isBlank).eq_of_length reaches] at cut
    exact occupied (List.append_cancel_left (cut.trans (List.append_nil _).symm))
  rw [Cursor.skipBlanks, Cursor.skipBlanks, sameBlanks]
  exact goesOn.advance (List.takeWhile_prefix isBlank).length_le

end Cursor

section Agreement

variable {bound position : Nat} {place : Place} {text : List Char}
variable {tokens : List PlacedToken}

theorem Late.mono {lower : Nat} (late : Late bound tokens) (below : lower ≤ bound) :
    Late lower tokens := by
  intro placed member
  exact (late placed member).imp_right (Nat.le_trans below)

theorem Course.late (course : Course place position text tokens) : Late position tokens := by
  induction course with
  | token blank takes spelled ends course ih =>
      refine List.forall_mem_cons.mpr ⟨Or.inr ?_, ih.mono (by omega)⟩
      simp only [PlacedToken.stop, Option.getD_some]
      omega
  | fault blank stops found =>
      refine List.forall_mem_cons.mpr ⟨Or.inl rfl, List.forall_mem_singleton.mpr (Or.inr ?_)⟩
      simp only [PlacedToken.stop, Option.getD_some]
      omega
  | exhausted begun blank =>
      refine List.forall_mem_singleton.mpr (Or.inr ?_)
      simp only [PlacedToken.stop, Option.getD_some]
      omega

/-- A reading takes its characters from the front of the text. -/
theorem Place.taken_isPrefix (place : Place) (text : List Char) :
    (place.goal.read text).taken <+: text := by
  cases reading : place.goal.read text with
  | token kind lexeme next =>
      obtain ⟨-, -, later, split, -⟩ := (Goal.read_eq_token place.goal_sound).mp reading
      exact ⟨later, split.symm⟩
  | fault fault lexeme =>
      obtain ⟨⟨later, split⟩, -⟩ := Goal.refuses_of_read reading
      exact ⟨later, split.symm⟩
  | exhausted => exact List.nil_prefix

namespace Scanner

/-- If what is read first reaches a position, then so does everything behind it. -/
theorem late_of_taken {cursor : Cursor}
    (reaches : bound ≤ cursor.skipBlanks.position +
      byteLength (place.goal.read cursor.skipBlanks.rest).taken) :
    Late bound (Scanner.mk cursor (.reading place)).tokens := by
  obtain ⟨later, split⟩ := place.taken_isPrefix cursor.skipBlanks.rest
  have behind := Cursor.advance_position split.symm
  rw [tokens_reading, ← Cursor.skipBlanks_rest]
  cases reading : place.goal.read cursor.skipBlanks.rest with
  | token kind lexeme next =>
      rw [reading] at reaches behind
      have course := course_of_reading next (cursor.skipBlanks.advance lexeme.length)
      refine List.forall_mem_cons.mpr ⟨Or.inr ?_, course.late.mono (behind ▸ reaches)⟩
      rwa [byteLength_eq] at reaches
  | fault fault lexeme =>
      rw [reading] at reaches behind
      refine List.forall_mem_cons.mpr ⟨Or.inl rfl, List.forall_mem_singleton.mpr (Or.inr ?_)⟩
      rwa [← behind] at reaches
  | exhausted =>
      rw [reading] at reaches
      exact List.forall_mem_singleton.mpr (Or.inr reaches)

/-- Two scanners agree up to the cut, if one of them has only the text in front of it. -/
theorem tokens_agree (place : Place) {later : List Char} {whole alone : Cursor}
    (goesOn : Cursor.Extends later whole alone) :
    AgreeUpTo alone.stop (Scanner.mk whole (.reading place)).tokens
      (Scanner.mk alone (.reading place)).tokens := by
  induction length : alone.rest.length using Nat.strong_induction_on
    generalizing place whole alone with
  | _ count ih =>
      have stops := alone.skipBlanks_stop
      by_cases nothing : alone.rest.dropWhile isBlank = []
      · have blank := List.dropWhile_eq_nil_iff.mp nothing
        have wholeSkips := whole.skipBlanks_position
        rw [goesOn.position, goesOn.rest, List.takeWhile_append_of_pos blank,
          byteLength_append] at wholeSkips
        rw [Cursor.stop, alone.skipBlanks_rest, nothing] at stops
        refine .late (late_of_taken ?_) (late_of_taken ?_)
        · rw [Cursor.stop]
          omega
        · exact stops ▸ Nat.le_add_right _ _
      · have skips := goesOn.skipBlanks nothing
        rw [← alone.skipBlanks_rest] at nothing
        rcases place.goal.read_agrees nothing later with equal | ⟨wholeReaches, aloneReaches⟩
        · rw [tokens_reading, tokens_reading, ← Cursor.skipBlanks_rest, ← Cursor.skipBlanks_rest,
            skips.rest, equal]
          have inside := (place.taken_isPrefix alone.skipBlanks.rest).length_le
          cases reading : place.goal.read alone.skipBlanks.rest with
          | token kind lexeme next =>
              rw [reading] at inside
              have taken := (Goal.read_eq_token place.goal_sound).mp reading
              have shorter := length ▸ rest_length_lt reading
              have others := ih _ shorter next (skips.advance inside) rfl
              have here : tokenAt whole.skipBlanks kind lexeme =
                  tokenAt alone.skipBlanks kind lexeme := by
                rw [tokenAt, tokenAt, skips.position]
              rw [Cursor.advance_stop, stops] at others
              simp only [here]
              exact .token (taken.1.isToken place.goal_sound).1 others
          | fault fault lexeme =>
              rw [reading] at inside
              have behind := (skips.advance inside).position
              simp only [Reading.taken] at behind
              simp only [endingAt, behind]
              exact .same _
          | exhausted =>
              rw [endingAt, endingAt, skips.position]
              exact .same _
        · have wholeLength := byteLength_le_of_isPrefix wholeReaches
          have aloneLength := byteLength_le_of_isPrefix aloneReaches
          rw [← skips.rest] at wholeLength
          have samePlace := skips.position
          rw [← stops]
          refine .late (late_of_taken ?_) (late_of_taken ?_)
          · rw [Cursor.stop]
            omega
          · exact Nat.add_le_add_left aloneLength _

end Scanner

variable {whole alone : List PlacedToken} {placed : PlacedToken}

theorem Late.not_getElem? (late : Late bound tokens) (sound : placed.token.kind ≠ .error)
    (early : placed.stop < bound) (index : Nat) : tokens[index]? ≠ some placed := by
  intro found
  rcases late placed (List.mem_of_getElem? found) with broken | behind
  · exact sound broken
  · exact Nat.not_le.mpr early behind

theorem AgreeUpTo.getElem?_iff (agree : AgreeUpTo bound whole alone)
    (sound : placed.token.kind ≠ .error) (early : placed.stop < bound) (index : Nat) :
    whole[index]? = some placed ↔ alone[index]? = some placed := by
  induction agree generalizing index with
  | same tokens => exact Iff.rfl
  | token inside others ih =>
      cases index with
      | zero => exact Iff.rfl
      | succ index => exact ih index
  | late wholeLate aloneLate =>
      have missing := wholeLate.not_getElem? sound early index
      have aloneMissing := aloneLate.not_getElem? sound early index
      exact ⟨fun found => (missing found).elim, fun found => (aloneMissing found).elim⟩

theorem AgreeUpTo.eq_of_ending (agree : AgreeUpTo bound whole alone) (member : placed ∈ whole)
    (ending : placed.token.kind = .endOfInput) (early : placed.stop < bound) : alone = whole := by
  induction agree with
  | same tokens => rfl
  | token inside others ih =>
      rcases List.mem_cons.mp member with rfl | member
      · exact (inside ending).elim
      · rw [ih member]
  | late wholeLate aloneLate =>
      rcases wholeLate placed member with broken | behind
      · rw [ending] at broken
        nomatch broken
      · exact (Nat.not_le.mpr early behind).elim

end Agreement

section Quiet

variable {place next : Place} {position : Nat} {text seen later : List Char} {kind : Token.Kind}
variable {tokens front back : List PlacedToken} {placed : PlacedToken}

/-- No token leads back to the start of a command. -/
theorem Place.ne_start_of_takes (takes : place.goal.Takes kind next) : next ≠ .start := by
  have words : ∀ entry ∈ commandWords ++ bridgeWords, entry.2 ≠ .start := by
    decide
  rintro rfl
  cases place with
  | start => exact words _ (List.mem_append_left _ takes) rfl
  | bridgeWord => exact words _ (List.mem_append_right _ takes) rfl
  | _ => simp [goal, Goal.Takes] at takes

theorem endsBefore_of_append {ends : Char → Bool} (behind : kind.EndsBefore ends (seen ++ later)) :
    kind.EndsBefore ends seen := by
  cases seen with
  | nil => cases kind <;> simp [Token.Kind.EndsBefore]
  | cons character seen => cases kind <;> exact behind

theorem exists_split_of_byteLength_le {before other rest : List Char}
    (same : before ++ later = other ++ rest) (shorter : byteLength before ≤ byteLength other) :
    ∃ middle, other = before ++ middle ∧ later = middle ++ rest := by
  rcases List.append_eq_append_iff.mp same with found | ⟨middle, rfl, rfl⟩
  · exact found
  · rw [byteLength_append] at shorter
    obtain rfl : middle = [] := eq_nil_of_byteLength (by omega)
    exact ⟨[], by simp, by simp⟩

/-- A token that ends in front of the cut is found in the text in front of the cut. What comes next
is found in the part of that text behind the token. -/
theorem Course.token_of_cut {blanks lexeme rest : List Char}
    (split : seen ++ later = blanks ++ (lexeme ++ rest)) (blank : Blank blanks)
    (takes : place.goal.Takes kind next) (spelled : kind.Spelling lexeme)
    (ends : kind.EndsBefore endsWord rest)
    (early : position + byteLength blanks + byteLength lexeme ≤ position + byteLength seen) :
    ∃ middle, rest = middle ++ later ∧
      position + byteLength seen =
        position + byteLength blanks + byteLength lexeme + byteLength middle ∧
      ∀ others, Course next (position + byteLength blanks + byteLength lexeme) middle others →
        Course place position seen
          (⟨⟨kind, String.ofList lexeme⟩, some (position + byteLength blanks)⟩ :: others) := by
  have shorter : byteLength (blanks ++ lexeme) ≤ byteLength seen := by
    rw [byteLength_append]
    omega
  rw [← List.append_assoc] at split
  obtain ⟨middle, rfl, rfl⟩ := exists_split_of_byteLength_le split.symm shorter
  refine ⟨middle, rfl, ?_, ?_⟩
  · rw [byteLength_append, byteLength_append]
    omega
  · intro others course
    rw [List.append_assoc]
    exact .token blank takes spelled (endsBefore_of_append ends) course

/-- A course that is cut at the end of a token ends there without a fault. -/
theorem Course.quiet (course : Course place position (seen ++ later) (front ++ placed :: back))
    (sound : placed.token.kind ≠ .error) (inside : placed.token.kind ≠ .endOfInput)
    (reaches : placed.stop = position + byteLength seen) :
    Course place position seen
      (front ++ [placed, ⟨.ending, some (position + byteLength seen)⟩]) := by
  induction front generalizing place position seen with
  | nil =>
      generalize split : seen ++ later = text at course
      generalize whole : [] ++ placed :: back = tokens at course
      cases course with
      | @token _ next _ blanks lexeme rest kind others blank takes spelled ends course =>
          obtain ⟨rfl, rfl⟩ := List.cons.inj whole
          rw [PlacedToken.stop, ← byteLength_eq, Option.getD_some] at reaches
          obtain ⟨middle, rfl, total, found⟩ :=
            Course.token_of_cut split blank takes spelled ends reaches.le
          -- The token reaches the cut, so nothing is left behind it.
          obtain rfl : middle = [] := eq_nil_of_byteLength (by omega)
          rw [total]
          exact found _ (.exhausted (Place.ne_start_of_takes takes) (by simp [Blank]))
      | fault blank stops found =>
          obtain ⟨rfl, -⟩ := List.cons.inj whole
          exact (sound rfl).elim
      | exhausted begun blank =>
          obtain ⟨rfl, -⟩ := List.cons.inj whole
          exact (inside rfl).elim
  | cons first front ih =>
      have firstSound := course.no_error_before inside first List.mem_cons_self
      generalize split : seen ++ later = text at course
      generalize whole : first :: front ++ placed :: back = tokens at course
      rw [List.cons_append] at whole
      cases course with
      | @token _ next _ blanks lexeme rest kind others blank takes spelled ends course =>
          obtain ⟨rfl, rfl⟩ := List.cons.inj whole
          have behind := (course.late placed (by simp)).resolve_left sound
          obtain ⟨middle, rfl, total, found⟩ :=
            Course.token_of_cut split blank takes spelled ends (behind.trans reaches.le)
          rw [total]
          exact found _ (ih course (reaches.trans total))
      | fault blank stops found =>
          obtain ⟨rfl, -⟩ := List.cons.inj whole
          exact (firstSound rfl).elim
      | exhausted begun blank => simp at whole

end Quiet

/-- Every cut of every text keeps the tokens in front of it. -/
theorem scan_stable (seen later : String) : Stable seen later := by
  have whole : (Cursor.atStart (seen ++ later)).rest = (Cursor.atStart seen).rest ++ later.toList :=
    String.toList_append
  have stops : (Cursor.atStart seen).stop = seen.utf8ByteSize := by
    rw [Cursor.stop, byteLength_eq, Cursor.atStart, String.ofList_toList, Nat.zero_add]
  have agree : AgreeUpTo seen.utf8ByteSize (scan (seen ++ later)) (scan seen) :=
    stops ▸ Scanner.tokens_agree .start ⟨rfl, whole⟩
  have course : Course .start 0 (seen.toList ++ later.toList) (scan (seen ++ later)) :=
    whole ▸ Scanner.course_of_reading .start (.atStart (seen ++ later))
  constructor
  case kept => exact fun index placed sound early => agree.getElem?_iff sound early index
  case closed => exact fun ending member isEnding early => agree.eq_of_ending member isEnding early
  case quiet =>
    intro front placed back split sound inside reaches
    rw [split] at course
    have size : 0 + byteLength seen.toList = seen.utf8ByteSize := stops
    have alone := Scanner.tokens_of_course (course.quiet sound inside (reaches.trans size.symm))
    rw [size] at alone
    have cut : scan seen = front ++ [placed, ⟨.ending, some seen.utf8ByteSize⟩] := alone
    have before := course.no_error_before inside
    refine ⟨cut, ?_⟩
    rw [cut]
    refine List.forall_mem_append.mpr ⟨before, List.forall_mem_cons.mpr ⟨sound, ?_⟩⟩
    exact List.forall_mem_singleton.mpr (by simp [Token.ending])

end TableFeed
