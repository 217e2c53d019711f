import TableFeed.Invocation
import TableFeed.Proofs.Command.Lookahead
import TableFeed.Proofs.Scan.Blanks

/-!
# Blanks around a command

A command may have blanks around it. Those in front only move its tokens, and those behind can only
be added to the message about a fault. The main statement says so for every text. It follows that a
session, which takes the blanks around a line away, answers a line without a fault as it is answered
when it is the only command.
-/

namespace TableFeed

/-- Blanks around a text make no difference to the command in it, nor to its tokens apart from their
positions. A message about a fault may go on with some of the blanks behind the text. -/
structure Padded (before text behind : String) : Prop where
  shifted : scan (before ++ text) = (scan text).map (PlacedToken.shift before.utf8ByteSize)
  parsed : Command.parse (before ++ text) = Command.parse text
  spills : ∀ message, Command.parse text = .error (.lexical message) →
    ∃ spilled rest, behind = spilled ++ rest ∧
      Command.parse (text ++ behind) = .error (.lexical (message ++ spilled))
  same : (∀ message, Command.parse text ≠ .error (.lexical message)) →
    Command.parse (text ++ behind) = Command.parse text
  accepted : ∀ command, Command.parse (text ++ behind) = .ok command ↔
    Command.parse text = .ok command
  tokens : ∀ command, Command.parse text = .ok command → tokensOf (text ++ behind) = tokensOf text
  trimmed : ∀ command, Command.parse (before ++ text ++ behind) = .ok command ↔
    Command.parse (String.ofList (Session.trimmed (before ++ text ++ behind).toList)) = .ok command
  prompt : ∀ style, (∀ token ∈ tokensOf text, token.kind ≠ .error) →
    Session.turnOfText style (before ++ text ++ behind) =
      .goOn (Invocation.answerOf style (before ++ text ++ behind)).output

/-- What blanks behind a text do to it: nothing if its tokens hold no fault. Otherwise the text is
refused, and they can only be added to the message about the fault. -/
inductive Spills (text behind : String) : Prop
  | sound (same : tokensOf (text ++ behind) = tokensOf text)
      (sound : ∀ token ∈ tokensOf text, token.kind ≠ .error)
  | lexical {message spilled rest : String} (split : behind = spilled ++ rest)
      (alone : Command.parse text = .error (.lexical message))
      (padded : Command.parse (text ++ behind) = .error (.lexical (message ++ spilled)))
  | refused {reason : CommandError} (alone : Command.parse text = .error reason)
      (padded : Command.parse (text ++ behind) = .error reason)

section Verdicts

variable {text behind : String} {command : Command} {message : String}

/-- The tokens of a text hold no fault, or just one, with the end of the command behind it. -/
theorem tokensOf_cases (text : String) :
    (∀ token ∈ tokensOf text, token.kind ≠ .error) ∨
      ∃ front message, tokensOf text = front ++ [⟨.error, message⟩, .ending] ∧
        ∀ token ∈ front, token.kind ≠ .endOfInput ∧ token.kind ≠ .error := by
  have course : Course .start 0 text.toList (scan text) :=
    Scanner.course_of_reading .start (.atStart text)
  obtain ⟨taken, last, closing, whole, leads, -, closes⟩ := course.leads
  have inside : ∀ token ∈ taken.map PlacedToken.token,
      token.kind ≠ .endOfInput ∧ token.kind ≠ .error := by
    refine List.forall_mem_map.mpr fun placed member => ?_
    exact leads.isToken placed.token.kind (List.mem_map_of_mem member)
  rw [tokensOf, whole, List.map_append]
  cases closes with
  | fault stop => exact Or.inr ⟨_, _, rfl, inside⟩
  | exhausted begun stop =>
      refine Or.inl (List.forall_mem_append.mpr ⟨fun token member => (inside token member).2, ?_⟩)
      exact List.forall_mem_singleton.mpr (by simp [Token.ending])

theorem spills_of_blank (blank : Blank behind.toList) : Spills text behind := by
  obtain ⟨spilled, ⟨rest, split⟩, same⟩ := tokensOf_append_blank text blank
  rcases tokensOf_cases text with sound | ⟨front, message, whole, inside⟩
  · exact .sound (same.trans (map_spill_of_sound sound spilled)) sound
  · have frontSame := map_spill_of_sound (fun token member => (inside token member).2) spilled
    have spilledWhole : tokensOf (text ++ behind) =
        front ++ [⟨.error, message ++ String.ofList spilled⟩, .ending] := by
      rw [same, whole, List.map_append, frontSame]
      rfl
    have alone : Command.parse text = Command.ofTokens (front ++ [⟨.error, message⟩, .ending]) := by
      rw [Command.parse, whole]
    have padded : Command.parse (text ++ behind) =
        Command.ofTokens (front ++ [⟨.error, message ++ String.ofList spilled⟩, .ending]) := by
      rw [Command.parse, spilledWhole]
    -- Either the fault is reported with its message, or it is not looked at.
    rcases (Reader.concludes_command front).broken with reported | ⟨answer, fixed⟩
    · have split : behind = String.ofList spilled ++ String.ofList rest := by
        rw [← String.ofList_append, split, String.ofList_toList]
      exact .lexical split (alone.trans (reported _ _)) (padded.trans (reported _ _))
    · cases answer with
      | ok command =>
          have accepted := fixed [⟨.error, message⟩]
          exact (Command.ofTokens_ne_ok inside accepted).elim
      | error reason => exact .refused (alone.trans (fixed _)) (padded.trans (fixed _))

theorem parse_of_tokensOf {other : String} (same : tokensOf other = tokensOf text) :
    Command.parse other = Command.parse text := by
  rw [Command.parse, Command.parse, same]

theorem Spills.parse_lexical (spills : Spills text behind)
    (reported : Command.parse text = .error (.lexical message)) :
    ∃ spilled rest, behind = spilled ++ rest ∧
      Command.parse (text ++ behind) = .error (.lexical (message ++ spilled)) := by
  have nothing : Command.parse (text ++ behind) = .error (.lexical message) →
      ∃ spilled rest, behind = spilled ++ rest ∧
        Command.parse (text ++ behind) = .error (.lexical (message ++ spilled)) := by
    intro same
    exact ⟨"", behind, String.empty_append.symm, by rw [String.append_empty, same]⟩
  cases spills with
  | sound same _ => exact nothing ((parse_of_tokensOf same).trans reported)
  | lexical split alone padded =>
      cases reported.symm.trans alone
      exact ⟨_, _, split, padded⟩
  | refused alone padded => exact nothing (padded.trans (alone.symm.trans reported))

theorem Spills.parse_eq (spills : Spills text behind)
    (other : ∀ message, Command.parse text ≠ .error (.lexical message)) :
    Command.parse (text ++ behind) = Command.parse text := by
  cases spills with
  | sound same _ => exact parse_of_tokensOf same
  | lexical _ alone _ => exact (other _ alone).elim
  | refused alone padded => exact padded.trans alone.symm

theorem Spills.parse_ok (spills : Spills text behind) :
    Command.parse (text ++ behind) = .ok command ↔ Command.parse text = .ok command := by
  cases spills with
  | sound same _ => rw [parse_of_tokensOf same]
  | lexical _ alone padded => simp [alone, padded]
  | refused alone padded => simp [alone, padded]

theorem Spills.tokensOf_eq (spills : Spills text behind)
    (accepted : Command.parse text = .ok command) : tokensOf (text ++ behind) = tokensOf text := by
  cases spills with
  | sound same _ => exact same
  | lexical _ alone _ => nomatch alone.symm.trans accepted
  | refused alone _ => nomatch alone.symm.trans accepted

end Verdicts

section Trimming

/-- A text is what is left of it without the blanks around it, and these blanks. -/
theorem exists_trimmed (text : List Char) :
    ∃ before behind, text = before ++ (Session.trimmed text ++ behind) ∧ Blank before ∧
      Blank behind := by
  have middle := List.takeWhile_append_dropWhile (p := isBlank)
    (l := (text.dropWhile isBlank).reverse)
  refine ⟨text.takeWhile isBlank, ((text.dropWhile isBlank).reverse.takeWhile isBlank).reverse, ?_,
    blank_takeWhile text, ?_⟩
  · rw [Session.trimmed, ← List.reverse_append, middle, List.reverse_reverse,
      List.takeWhile_append_dropWhile]
  · intro character member
    exact blank_takeWhile _ character (List.mem_reverse.mp member)

theorem trimmed_spec (line : String) :
    ∃ before behind : String,
      line = before ++ String.ofList (Session.trimmed line.toList) ++ behind ∧
        Blank before.toList ∧ Blank behind.toList := by
  obtain ⟨before, behind, split, blankBefore, blankBehind⟩ := exists_trimmed line.toList
  refine ⟨String.ofList before, String.ofList behind, ?_, ?_, ?_⟩
  · rw [← String.ofList_append, ← String.ofList_append, List.append_assoc, ← split,
      String.ofList_toList]
  · rwa [String.toList_ofList]
  · rwa [String.toList_ofList]

theorem parse_trimmed (line : String) (command : Command) :
    Command.parse line = .ok command ↔
      Command.parse (String.ofList (Session.trimmed line.toList)) = .ok command := by
  obtain ⟨before, behind, split, blankBefore, blankBehind⟩ := trimmed_spec line
  generalize String.ofList (Session.trimmed line.toList) = text at split ⊢
  rw [split, (spills_of_blank blankBehind).parse_ok,
    parse_of_tokensOf (tokensOf_blank_append blankBefore text)]

theorem Token.kind_spill (spilled : List Char) (token : Token) :
    (token.spill spilled).kind = token.kind := by
  unfold spill
  split
  · rename_i broken
    exact broken.symm
  · rfl

/-- Without a fault in a line, its tokens are those of what is left of it without the blanks. -/
theorem tokensOf_trimmed {line : String} (sound : ∀ token ∈ tokensOf line, token.kind ≠ .error) :
    tokensOf (String.ofList (Session.trimmed line.toList)) = tokensOf line := by
  obtain ⟨before, behind, split, blankBefore, blankBehind⟩ := trimmed_spec line
  generalize String.ofList (Session.trimmed line.toList) = text at split ⊢
  obtain ⟨spilled, -, same⟩ := tokensOf_append_blank (before ++ text) blankBehind
  rw [← split, tokensOf_blank_append blankBefore] at same
  have textSound : ∀ token ∈ tokensOf text, token.kind ≠ .error := by
    intro token member
    have spilledMember : token.spill spilled ∈ tokensOf line := same ▸ List.mem_map_of_mem member
    have kept := sound _ spilledMember
    rwa [Token.kind_spill] at kept
  rw [same, map_spill_of_sound textSound]

theorem tokensOf_of_fault {text : String} {fault : Fault} {lexeme : List Char}
    (found : readCommand (text.toList.dropWhile isBlank) = .fault fault lexeme) :
    tokensOf text = [⟨.error, fault.message (String.ofList lexeme)⟩, .ending] := by
  have reading : Place.start.goal.read ((Cursor.atStart text).rest.dropWhile isBlank) =
      .fault fault lexeme := found
  change Scanner.tokensAt .start (.atStart text) = _
  rw [Scanner.tokensAt_eq, reading]

/-- The lines that mean something else to a session are no commands. -/
theorem tokensOf_broken {line : String} (special : line = ".exit" ∨ line = ".quit" ∨ line = "") :
    ∃ token ∈ tokensOf line, token.kind = .error := by
  have dot : isBlank '.' = false ∧ someBeginsWith commandWords ['.'] = false := by
    decide
  have dotted : ∀ later, line = String.ofList ('.' :: later) →
      readCommand (line.toList.dropWhile isBlank) = .fault .noCommand ['.'] := by
    rintro later rfl
    rw [String.toList_ofList, List.dropWhile_cons_of_neg (by simp [dot.1]), readCommand_of_other
      (by decide), if_neg (by simp [dot.2])]
  have broken : ∃ lexeme, readCommand (line.toList.dropWhile isBlank) =
      .fault .noCommand lexeme := by
    rcases special with rfl | rfl | rfl
    · exact ⟨['.'], dotted _ rfl⟩
    · exact ⟨['.'], dotted _ rfl⟩
    · exact ⟨[], rfl⟩
  obtain ⟨lexeme, found⟩ := broken
  rw [tokensOf_of_fault found]
  exact ⟨_, List.mem_cons_self, rfl⟩

/-- A session answers a line without a fault as it is answered when it is the only command. -/
theorem turnOfText_of_sound {line : String} (sound : ∀ token ∈ tokensOf line, token.kind ≠ .error)
    (style : Style) :
    Session.turnOfText style line = .goOn (Invocation.answerOf style line).output := by
  have same := tokensOf_trimmed sound
  have ordinary : ∀ special, special = ".exit" ∨ special = ".quit" ∨ special = "" →
      String.ofList (Session.trimmed line.toList) ≠ special := by
    rintro special isSpecial rfl
    obtain ⟨token, member, broken⟩ := tokensOf_broken isSpecial
    exact sound token (same ▸ member) broken
  have noStop : ¬ (String.ofList (Session.trimmed line.toList) = ".exit" ∨
      String.ofList (Session.trimmed line.toList) = ".quit") := by
    rintro (isStop | isStop)
    · exact ordinary _ (Or.inl rfl) isStop
    · exact ordinary _ (Or.inr (Or.inl rfl)) isStop
  have occupied : ¬ (String.ofList (Session.trimmed line.toList)).isEmpty = true := by
    intro nothing
    exact ordinary _ (Or.inr (Or.inr rfl)) (String.isEmpty_iff.mp nothing)
  have sameOutcome : Outcome.ofText (String.ofList (Session.trimmed line.toList)) =
      Outcome.ofText line := by
    rw [Outcome.ofText, Outcome.ofText, same, parse_of_tokensOf same]
  rw [Session.turnOfText, if_neg noStop, if_neg occupied, sameOutcome, Invocation.answerOf]

end Trimming

/-- Blanks around a text make no difference to the command in it. -/
theorem padded_of_blank {before text behind : String} (blankBefore : Blank before.toList)
    (blankBehind : Blank behind.toList) : Padded before text behind := by
  have spills : Spills text behind := spills_of_blank blankBehind
  constructor
  case shifted => exact scan_blank_append blankBefore text
  case parsed => exact parse_of_tokensOf (tokensOf_blank_append blankBefore text)
  case spills => exact fun message => spills.parse_lexical
  case same => exact spills.parse_eq
  case accepted => exact fun command => spills.parse_ok
  case tokens => exact fun command => spills.tokensOf_eq
  case trimmed => exact fun command => parse_trimmed _ command
  case prompt =>
    intro style sound
    apply turnOfText_of_sound
    obtain ⟨spilled, -, same⟩ := tokensOf_append_blank (before ++ text) blankBehind
    rw [same, tokensOf_blank_append blankBefore, map_spill_of_sound sound]
    exact sound

/-- Blanks around a command in which a quotation mark is never closed. -/
theorem padded_unclosed :
    (Blank " ".toList ∧ Blank "\t ".toList) ∧
      Padded " " "mysql connect \x27a" "\t " :=
  ⟨by decide, padded_of_blank (by decide) (by decide)⟩

end TableFeed
