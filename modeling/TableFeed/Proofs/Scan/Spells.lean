import Mathlib.Data.List.TakeWhile
import TableFeed.Proofs.Scan.Goals
import TableFeed.Scan.Scanner

/-!
# Which texts are scanned into which tokens

A text spells some tokens when it consists of spellings of them, with blanks between them wherever
one of them would run into the next one. The main statements say that a scanner finds the tokens of
each text that spells them along a path of places, and that the text in front of the end of a scan
spells the tokens that were handed out.
-/

namespace TableFeed

/-- Each character of a text is a blank. -/
def Blank (text : List Char) : Prop :=
  ∀ character ∈ text, isBlank character = true

instance (text : List Char) : Decidable (Blank text) :=
  List.decidableBAll _ text

/-- A text consists of spellings of the tokens, with blanks around them. A keyword has a blank or
the end of the text behind it. -/
inductive Spells : List Token → List Char → Prop
  | blank {text : List Char} (blank : Blank text) : Spells [] text
  | token {token : Token} {tokens : List Token} {blanks later : List Char} (blank : Blank blanks)
      (spelled : token.kind.Spelling token.text.toList)
      (ends : token.kind.EndsBefore isBlank later) (others : Spells tokens later) :
      Spells (token :: tokens) (blanks ++ (token.text.toList ++ later))

/-- Tokens of the given kinds lead from one place to another one. -/
def Place.Leads : Place → List Token.Kind → Place → Prop
  | place, [], last => place = last
  | place, kind :: kinds, last => ∃ next, place.goal.Takes kind next ∧ next.Leads kinds last

theorem Place.leads_append {place last : Place} {kinds others : List Token.Kind} :
    place.Leads (kinds ++ others) last ↔
      ∃ middle, place.Leads kinds middle ∧ middle.Leads others last := by
  induction kinds generalizing place with
  | nil => simp [Leads]
  | cons kind kinds ih =>
      simp only [List.cons_append, Leads, ih]
      constructor
      · rintro ⟨next, takes, middle, leads, rest⟩
        exact ⟨middle, ⟨next, takes, leads⟩, rest⟩
      · rintro ⟨middle, ⟨next, takes, leads⟩, rest⟩
        exact ⟨next, takes, middle, leads, rest⟩

theorem Place.Leads.isToken {place last : Place} {kinds : List Token.Kind}
    (leads : place.Leads kinds last) :
    ∀ kind ∈ kinds, kind ≠ .endOfInput ∧ kind ≠ .error := by
  induction kinds generalizing place with
  | nil => nofun
  | cons kind kinds ih =>
      obtain ⟨next, takes, rest⟩ := leads
      exact List.forall_mem_cons.mpr ⟨takes.isToken place.goal_sound, ih rest⟩

section Ends

variable {kind : Token.Kind} {text later blanks : List Char} {tokens : List Token}

/-- A text that spells tokens begins with no null character: that is no blank, and no token begins
with it. -/
theorem Spells.head_ne_null (spells : Spells tokens text) : text.head? ≠ some '\x00' := by
  have null : isBlank '\x00' = false ∧ endsWord '\x00' = true := by
    decide
  intro begins
  obtain ⟨rest, rfl⟩ := List.head?_eq_some_iff.mp begins
  generalize split : '\x00' :: rest = text at spells
  cases spells with
  | blank blank =>
      subst text
      have first := blank _ List.mem_cons_self
      rw [null.1] at first
      nomatch first
  | @token token _ blanks _ blank spelled =>
      cases blanks with
      | nil =>
          obtain ⟨first, others, lexeme, outside⟩ := spelled.begins
          rw [lexeme] at split
          obtain ⟨rfl, -⟩ := List.cons.inj split
          rw [null.2] at outside
          nomatch outside
      | cons character blanks =>
          obtain ⟨rfl, -⟩ := List.cons.inj split
          have first := blank _ List.mem_cons_self
          rw [null.1] at first
          nomatch first

/-- A keyword that ends at the null character has no token behind it. -/
theorem endsBefore_isBlank (ends : kind.EndsBefore endsWord later)
    (noNull : later.head? ≠ some '\x00') : kind.EndsBefore isBlank later := by
  have blank : ∀ character ∈ later.head?, endsWord character = true → isBlank character = true := by
    intro character first ends
    rw [endsWord, Bool.or_eq_true, beq_iff_eq] at ends
    rcases ends with blank | rfl
    · exact blank
    · exact (noNull first).elim
  cases kind with
  | name => exact ends
  | value => exact ends
  | string => exact ends
  | _ => exact fun keyword character first => blank character first (ends keyword character first)

theorem endsBefore_endsWord (ends : kind.EndsBefore isBlank later) :
    kind.EndsBefore endsWord later := by
  have blank : ∀ character, isBlank character = true → endsWord character = true := by
    intro character blank
    simp [endsWord, blank]
  cases kind with
  | name => exact ends
  | value => exact ends
  | string => exact ends
  | _ => exact fun keyword character first => blank character (ends keyword character first)

theorem not_isBlank_of_not_endsWord {character : Char} (inside : endsWord character = false) :
    isBlank character = false := by
  rw [endsWord, Bool.or_eq_false_iff] at inside
  exact inside.1

theorem dropWhile_isBlank (blank : Blank blanks) {lexeme : List Char}
    (spelled : kind.Spelling lexeme) :
    (blanks ++ (lexeme ++ later)).dropWhile isBlank = lexeme ++ later := by
  obtain ⟨first, others, rfl, outside⟩ := spelled.begins
  rw [List.dropWhile_append_of_pos blank, List.cons_append]
  exact List.dropWhile_cons_of_neg (by simp [not_isBlank_of_not_endsWord outside])

end Ends

/-- Only in front of a command is the end of the text a fault. -/
theorem Place.read_nil {place : Place} (begun : place ≠ .start) :
    place.goal.read [] = .exhausted := by
  cases place with
  | start => exact (begun rfl).elim
  | _ => rfl

theorem Goal.eq_nil_of_read {goal : Goal} {text : List Char}
    (ended : goal.read text = .exhausted) : text = [] := by
  have noWord : ∀ words text, readWord words text ≠ .exhausted := by
    intro words text
    unfold readWord
    split <;> nofun
  have noCommand : ∀ text, readCommand text ≠ .exhausted := by
    intro text
    unfold readCommand
    split
    · nofun
    · nofun
    · split
      · exact noWord _ _
      · nofun
    · split
      · exact noWord _ _
      · nofun
  cases text with
  | nil => rfl
  | cons first later =>
      cases goal <;> grind [Goal.read, readBridgeAction, readName, readMark, readValue, readQuoted,
        readSeparator]

namespace Scanner

theorem tokens_of_next? {scanner : Scanner} {found : PlacedToken × Scanner}
    (step : scanner.next? = some found) : scanner.tokens = found.1 :: found.2.tokens := by
  rw [tokens]
  split
  · rename_i finished
    rw [finished] at step
    cases step
  · rename_i same
    rw [same] at step
    cases step
    rfl

theorem tokens_of_none {scanner : Scanner} (stopped : scanner.next? = none) :
    scanner.tokens = [] := by
  rw [tokens]
  split
  · rfl
  · rename_i step
    rw [stopped] at step
    cases step

theorem tokens_of_finished (cursor : Cursor) : (Scanner.mk cursor .finished).tokens = [] :=
  tokens_of_none rfl

/-- Behind a token less of the text is left. -/
theorem rest_length_lt {place next : Place} {cursor : Cursor} {kind : Token.Kind}
    {lexeme : List Char}
    (reading : place.goal.read cursor.skipBlanks.rest = .token kind lexeme next) :
    (cursor.skipBlanks.advance lexeme.length).rest.length < cursor.rest.length := by
  have step : (Scanner.mk cursor (.reading place)).next? =
      some (tokenAt cursor.skipBlanks kind lexeme,
        ⟨cursor.skipBlanks.advance lexeme.length, .reading next⟩) := by
    simp only [next?, readAt, reading]
  have fewer := next?_remaining_lt step
  simp only [remaining] at fewer
  omega

/-- The tokens that a scanner hands out when it reads at a place, without their positions. -/
def tokensAt (place : Place) (cursor : Cursor) : List Token :=
  (Scanner.mk cursor (.reading place)).tokens.map PlacedToken.token

/-- What a scanner hands out first depends on the text behind the blanks. Behind a token it goes on
reading, and behind a fault it hands out the end of the command only. -/
theorem tokens_reading (place : Place) (cursor : Cursor) :
    (Scanner.mk cursor (.reading place)).tokens =
      match place.goal.read (cursor.rest.dropWhile isBlank) with
      | .token kind lexeme next =>
          tokenAt cursor.skipBlanks kind lexeme ::
            (Scanner.mk (cursor.skipBlanks.advance lexeme.length) (.reading next)).tokens
      | .fault fault lexeme =>
          [errorToken fault lexeme, endingAt (cursor.skipBlanks.advance lexeme.length)]
      | .exhausted => [endingAt cursor.skipBlanks] := by
  have step : (Scanner.mk cursor (.reading place)).next? =
      some (readAt place cursor.skipBlanks) := rfl
  rw [← Cursor.skipBlanks_rest, tokens_of_next? step]
  unfold readAt
  cases place.goal.read cursor.skipBlanks.rest with
  | token kind lexeme next => rfl
  | fault fault lexeme =>
      rw [tokens_of_next? rfl, tokens_of_finished]
  | exhausted => rw [tokens_of_finished]

theorem tokensAt_eq (place : Place) (cursor : Cursor) :
    tokensAt place cursor =
      match place.goal.read (cursor.rest.dropWhile isBlank) with
      | .token kind lexeme next =>
          ⟨kind, String.ofList lexeme⟩ :: tokensAt next (cursor.skipBlanks.advance lexeme.length)
      | .fault fault lexeme => [⟨.error, fault.message (String.ofList lexeme)⟩, .ending]
      | .exhausted => [.ending] := by
  rw [tokensAt, tokens_reading]
  cases place.goal.read (cursor.rest.dropWhile isBlank) <;> rfl

/-- A scanner finds the tokens that a text spells, if they lead from place to place. -/
theorem tokensAt_of_spells {place last : Place} {tokens : List Token} {text : List Char}
    (spells : Spells tokens text) (leads : place.Leads (tokens.map Token.kind) last)
    (begun : last ≠ .start) {cursor : Cursor} (before : cursor.rest = text) :
    tokensAt place cursor = tokens ++ [.ending] := by
  induction spells generalizing place cursor with
  | @blank text blank =>
      obtain rfl : place = last := leads
      have nothing : text.dropWhile isBlank = [] := List.dropWhile_eq_nil_iff.mpr blank
      rw [tokensAt_eq, before, nothing, Place.read_nil begun]
      rfl
  | @token token tokens blanks later blank spelled ends others ih =>
      obtain ⟨next, takes, leads⟩ := leads
      have skipped : cursor.rest.dropWhile isBlank = token.text.toList ++ later := by
        rw [before, dropWhile_isBlank blank spelled]
      have reading := (Goal.read_eq_token place.goal_sound).mpr
        ⟨takes, spelled, later, skipped, endsBefore_endsWord ends⟩
      have behind : (cursor.skipBlanks.advance token.text.toList.length).rest = later := by
        rw [Cursor.advance_rest, Cursor.skipBlanks_rest, skipped, List.drop_left]
      rw [tokensAt_eq, reading]
      simp only [String.ofList_toList, ih leads behind, List.cons_append]

/-- The tokens in front of the end of a scan are spelled by the text. -/
theorem spells_of_tokensAt {place : Place} {cursor : Cursor} {taken rest : List Token}
    (split : tokensAt place cursor = taken ++ rest)
    (inside : ∀ token ∈ taken, token.kind ≠ .endOfInput ∧ token.kind ≠ .error)
    (ended : (rest.head?.getD .ending).kind = .endOfInput) : Spells taken cursor.rest := by
  induction taken generalizing place cursor with
  | nil =>
      rw [List.nil_append] at split
      rw [← split, tokensAt_eq] at ended
      cases reading : place.goal.read (cursor.rest.dropWhile isBlank) with
      | token kind lexeme next =>
          rw [reading] at ended
          have takes := ((Goal.read_eq_token place.goal_sound).mp reading).1
          exact ((takes.isToken place.goal_sound).1 ended).elim
      | fault fault lexeme =>
          rw [reading] at ended
          nomatch ended
      | exhausted =>
          exact .blank (List.dropWhile_eq_nil_iff.mp (Goal.eq_nil_of_read reading))
  | cons token taken ih =>
      obtain ⟨tokenInside, othersInside⟩ := List.forall_mem_cons.mp inside
      rw [tokensAt_eq] at split
      cases reading : place.goal.read (cursor.rest.dropWhile isBlank) with
      | token kind lexeme next =>
          rw [reading] at split
          obtain ⟨rfl, others⟩ := List.cons.inj split
          obtain ⟨-, spelled, later, skipped, ends⟩ :=
            (Goal.read_eq_token place.goal_sound).mp reading
          have spells := ih others othersInside
          rw [Cursor.advance_rest, Cursor.skipBlanks_rest, skipped, List.drop_left] at spells
          have whole : cursor.rest.takeWhile isBlank ++ (lexeme ++ later) = cursor.rest := by
            rw [← skipped, List.takeWhile_append_dropWhile]
          have blank : Blank (cursor.rest.takeWhile isBlank) :=
            List.all_eq_true.mp List.all_takeWhile
          -- A keyword may end at a null character, but then no token could stand behind it.
          have endsHere := endsBefore_isBlank ends spells.head_ne_null
          have sameText : (String.ofList lexeme).toList = lexeme := String.toList_ofList
          have found := @Spells.token ⟨kind, String.ofList lexeme⟩ taken _ later blank
            (by rwa [sameText]) endsHere spells
          rwa [sameText, whole] at found
      | fault fault lexeme =>
          rw [reading] at split
          obtain ⟨rfl, -⟩ := List.cons.inj split
          exact (tokenInside.2 rfl).elim
      | exhausted =>
          rw [reading] at split
          obtain ⟨rfl, -⟩ := List.cons.inj split
          exact (tokenInside.1 rfl).elim

end Scanner

end TableFeed
