import TableFeed.Proofs.Scan.Course

/-!
# How tokens tile a text

The tokens of a text stand in it side by side: each of them is the part of the text at its position,
and only blanks stand between them. Where a scan meets a fault, the message ends with the part of
the text behind the last token and the blanks, up to the position at which the end of the command is
reported. The main statement says so for every text.
-/

namespace TableFeed

/-- A part of a text stands in it behind the given number of bytes. -/
def StandsAt (text : String) (position : Nat) (part : String) : Prop :=
  ∃ before later, text = before ++ part ++ later ∧ before.utf8ByteSize = position

/-- Only blanks stand in the text between the end of the last of some tokens, or the start of the
text if there is none, and the given position. The null character is no blank. -/
def BlankBetween (text : String) (front : List PlacedToken) (position : Nat) : Prop :=
  ∃ gap : String, Blank gap.toList ∧ '\x00' ∉ gap.toList ∧
    StandsAt text (reach 0 front) gap ∧ reach 0 front + gap.utf8ByteSize = position

/-- The faults that a scan can meet. -/
def Fault.known : List Fault :=
  [.noCommand, .noBridgeAction, .unknownWord, .noLetter, .otherMark '*', .otherMark '=',
    .otherMark '(', .noSeparator, .noValue, .unclosed]

/-- The tokens stand in the text in their order and leave out only blanks. Without a fault they
reach up to the end of the text. A message about a fault quotes what stands in front of the position
at which the scan has stopped, from the first character on that is no blank. -/
structure Tiling (text : String) (tokens : List PlacedToken) : Prop where
  pieces : ∀ front placed back, tokens = front ++ placed :: back →
    placed.token.kind ≠ .error → placed.token.kind ≠ .endOfInput →
    ∃ start, placed.position = some start ∧ BlankBetween text front start ∧
      StandsAt text start placed.token.text ∧ placed.token.text ≠ ""
  ordered : tokens.Pairwise fun first second =>
    ∀ start ∈ first.position, ∀ next ∈ second.position,
      start + first.token.text.utf8ByteSize ≤ next
  ending : ∃ front stop, tokens = front ++ [⟨.ending, some stop⟩] ∧ StandsAt text stop "" ∧
    ((∀ placed ∈ front, placed.token.kind ≠ .error) →
      stop = text.utf8ByteSize ∧ BlankBetween text front stop)
  quoted : ∀ front error back, tokens = front ++ error :: back → error.token.kind = .error →
    ∃ fault ∈ Fault.known, ∃ start part, error.token.text = fault.message part ∧
      BlankBetween text front start ∧ StandsAt text start part ∧
      (∀ character, StandsAt text start (String.singleton character) →
        isBlank character = false) ∧
      back = [⟨.ending, some (start + part.utf8ByteSize)⟩]

theorem Place.faults_subset (place : Place) : place.goal.faults ⊆ Fault.known := by
  cases place <;> simp [goal, Goal.faults, Fault.known]

section Places

variable {text : String} {before part later blanks : List Char} {front : List PlacedToken}

theorem standsAt_of_split (split : text.toList = before ++ (part ++ later)) :
    StandsAt text (byteLength before) (String.ofList part) := by
  refine ⟨String.ofList before, String.ofList later, ?_, (byteLength_eq before).symm⟩
  rw [← String.ofList_append, ← String.ofList_append, List.append_assoc, ← split,
    String.ofList_toList]

theorem blankBetween_of_split (split : text.toList = before ++ (blanks ++ later))
    (blank : Blank blanks) (reached : reach 0 front = byteLength before) :
    BlankBetween text front (byteLength before + byteLength blanks) := by
  have null : isBlank '\x00' = false := by
    decide
  refine ⟨String.ofList blanks, ?_, ?_, ?_, ?_⟩
  · rwa [String.toList_ofList]
  · rw [String.toList_ofList]
    intro inside
    rw [blank _ inside] at null
    nomatch null
  · rw [reached]
    exact standsAt_of_split split
  · rw [reached, byteLength_eq blanks]

/-- A text can be split at most once behind a number of bytes. -/
theorem eq_of_byteLength {other rest : List Char} (same : before ++ later = other ++ rest)
    (sameLength : byteLength before = byteLength other) : later = rest := by
  induction before generalizing other with
  | nil =>
      cases other with
      | nil => exact same
      | cons character other =>
          have positive := byteLength_pos (List.cons_ne_nil character other)
          rw [← sameLength] at positive
          nomatch positive
  | cons character before ih =>
      cases other with
      | nil =>
          have positive := byteLength_pos (List.cons_ne_nil character before)
          rw [sameLength] at positive
          nomatch positive
      | cons first other =>
          obtain ⟨rfl, others⟩ := List.cons.inj same
          exact ih others (Nat.add_left_cancel sameLength)

theorem head_of_standsAt (split : text.toList = before ++ later) {character : Char}
    (stands : StandsAt text (byteLength before) (String.singleton character)) :
    later.head? = some character := by
  obtain ⟨start, rest, rfl, sameLength⟩ := stands
  have parts : start.toList ++ (character :: rest.toList) = before ++ later := by
    rw [← split]
    simp
  rw [← String.ofList_toList (s := start), ← byteLength_eq] at sameLength
  rw [← eq_of_byteLength parts sameLength, List.head?_cons]

end Places

section Courses

variable {place : Place} {position : Nat} {rest : List Char} {placed : PlacedToken}
variable {tokens front back : List PlacedToken}

theorem Course.position_le (course : Course place position rest tokens) :
    ∀ placed ∈ tokens, ∀ start ∈ placed.position, position ≤ start := by
  induction course with
  | token blank takes spelled ends course ih =>
      refine List.forall_mem_cons.mpr ⟨?_, ?_⟩
      · rintro start ⟨⟩
        omega
      · intro placed member start stands
        have behind := ih placed member start stands
        omega
  | fault blank stops found =>
      refine List.forall_mem_cons.mpr ⟨nofun, ?_⟩
      refine List.forall_mem_singleton.mpr ?_
      rintro start ⟨⟩
      omega
  | exhausted begun blank =>
      refine List.forall_mem_singleton.mpr ?_
      rintro start ⟨⟩
      omega

theorem Course.ordered (course : Course place position rest tokens) :
    tokens.Pairwise fun first second =>
      ∀ start ∈ first.position, ∀ next ∈ second.position,
        start + first.token.text.utf8ByteSize ≤ next := by
  induction course with
  | @token place next position blanks lexeme later kind others blank takes spelled ends course ih =>
      refine List.pairwise_cons.mpr ⟨?_, ih⟩
      rintro placed member start ⟨⟩ following stands
      have behind := course.position_le placed member following stands
      rw [byteLength_eq lexeme] at behind
      exact behind
  | fault blank stops found =>
      refine List.pairwise_cons.mpr ⟨?_, List.pairwise_singleton _ _⟩
      rintro placed member start ⟨⟩
  | exhausted begun blank => exact List.pairwise_singleton _ _

variable {text : String}

/-- A course that begins with a token or a fault stands in the text behind some blanks. -/
theorem Course.cut_start (course : Course place 0 text.toList (front ++ placed :: back))
    (inside : placed.token.kind ≠ .endOfInput) :
    ∃ before later next, text.toList = before ++ later ∧ reach 0 front = byteLength before ∧
      Course next (byteLength before) later (placed :: back) := by
  obtain ⟨before, later, next, split, behind, reached⟩ :=
    course.cut (List.cons_ne_nil placed back) (course.no_error_before inside)
  rw [Nat.zero_add] at behind reached
  exact ⟨before, later, next, split, reached, behind⟩

theorem Course.piece (course : Course place 0 text.toList (front ++ placed :: back))
    (sound : placed.token.kind ≠ .error) (inside : placed.token.kind ≠ .endOfInput) :
    ∃ start, placed.position = some start ∧ BlankBetween text front start ∧
      StandsAt text start placed.token.text ∧ placed.token.text ≠ "" := by
  obtain ⟨before, later, next, split, reached, behind⟩ := course.cut_start inside
  cases behind with
  | @token _ _ _ blanks lexeme rest kind _ blank takes spelled ends further =>
      have stands : text.toList = (before ++ blanks) ++ (lexeme ++ rest) := by
        rw [split, List.append_assoc]
      have start := standsAt_of_split stands
      rw [byteLength_append] at start
      refine ⟨_, rfl, blankBetween_of_split split blank reached, start, ?_⟩
      obtain ⟨first, others, rfl, -⟩ := spelled.begins
      simp
  | fault blank stops found => exact (sound rfl).elim
  | exhausted begun blank => exact (inside rfl).elim

theorem Course.quoted (course : Course place 0 text.toList (front ++ placed :: back))
    (broken : placed.token.kind = .error) :
    ∃ fault ∈ Fault.known, ∃ start part, placed.token.text = fault.message part ∧
      BlankBetween text front start ∧ StandsAt text start part ∧
      (∀ character, StandsAt text start (String.singleton character) →
        isBlank character = false) ∧
      back = [⟨.ending, some (start + part.utf8ByteSize)⟩] := by
  have inside : placed.token.kind ≠ .endOfInput := by
    rw [broken]
    decide
  obtain ⟨before, later, next, split, reached, behind⟩ := course.cut_start inside
  cases behind with
  | token blank takes spelled ends further =>
      exact ((takes.isToken next.goal_sound).2 broken).elim
  | @fault _ _ blanks lexeme rest fault blank stops found =>
      have stands : text.toList = (before ++ blanks) ++ (lexeme ++ rest) := by
        rw [split, List.append_assoc]
      have start := standsAt_of_split stands
      rw [byteLength_append] at start
      refine ⟨fault, next.faults_subset (Goal.refuses_of_read found).2, _, String.ofList lexeme,
        rfl, blankBetween_of_split split blank reached, start, ?_, ?_⟩
      · intro character here
        rw [← byteLength_append] at here
        exact stops character (head_of_standsAt stands here)
      · rw [byteLength_eq lexeme]
  | exhausted begun blank => nomatch broken

/-- A course ends with the end of the command. Without a fault it covers the text up to some
blanks. -/
theorem Course.covers (course : Course place position rest tokens) :
    ∃ front stop before later, tokens = front ++ [⟨.ending, some stop⟩] ∧
      rest = before ++ later ∧ position + byteLength before = stop ∧
      ((∀ placed ∈ front, placed.token.kind ≠ .error) →
        later = [] ∧ ∃ covered blanks, before = covered ++ blanks ∧ Blank blanks ∧
          reach position front = position + byteLength covered) := by
  induction course with
  | @token place next position blanks lexeme rest kind others blank takes spelled ends course ih =>
      obtain ⟨front, stop, before, later, rfl, rfl, stops, complete⟩ := ih
      refine ⟨_ :: front, stop, blanks ++ (lexeme ++ before), later, rfl, by simp, ?_, ?_⟩
      · rw [byteLength_append, byteLength_append]
        omega
      · intro sound
        obtain ⟨nothing, covered, gap, rfl, blankGap, reached⟩ :=
          complete (List.forall_mem_cons.mp sound).2
        refine ⟨nothing, blanks ++ (lexeme ++ covered), gap, by simp, blankGap, ?_⟩
        rw [byteLength_append, byteLength_append, ← Nat.add_assoc, ← Nat.add_assoc, ← reached,
          byteLength_eq lexeme]
        rfl
  | @fault place position blanks lexeme later fault blank stops found =>
      refine ⟨[Scanner.errorToken fault lexeme], _, blanks ++ lexeme, later, rfl, by simp, ?_, ?_⟩
      · rw [byteLength_append, Nat.add_assoc]
      · intro sound
        exact (sound _ (List.mem_singleton_self _) rfl).elim
  | @exhausted place position blanks begun blank =>
      refine ⟨[], _, blanks, [], rfl, by simp, rfl, ?_⟩
      intro _
      exact ⟨rfl, [], blanks, rfl, blank, rfl⟩

theorem Course.ending (course : Course place 0 text.toList tokens) :
    ∃ front stop, tokens = front ++ [⟨.ending, some stop⟩] ∧ StandsAt text stop "" ∧
      ((∀ placed ∈ front, placed.token.kind ≠ .error) →
        stop = text.utf8ByteSize ∧ BlankBetween text front stop) := by
  obtain ⟨front, stop, before, later, whole, split, stops, complete⟩ := course.covers
  rw [Nat.zero_add] at stops
  have stands : StandsAt text (byteLength before) (String.ofList []) := standsAt_of_split split
  refine ⟨front, stop, whole, stops ▸ stands, ?_⟩
  intro sound
  obtain ⟨rfl, covered, blanks, rfl, blank, reached⟩ := complete sound
  rw [Nat.zero_add] at reached
  have gap := blankBetween_of_split (by rw [split, List.append_assoc]) blank reached
  rw [← byteLength_append, stops] at gap
  refine ⟨?_, gap⟩
  rw [← stops, byteLength_eq, ← List.append_nil (covered ++ blanks), ← split,
    String.ofList_toList]

/-- The tokens of every text tile it. -/
theorem scan_tiling (text : String) : Tiling text (scan text) := by
  have course : Course .start 0 text.toList (scan text) :=
    Scanner.course_of_reading .start (.atStart text)
  constructor
  case pieces =>
    intro front placed back whole sound inside
    rw [whole] at course
    exact course.piece sound inside
  case ordered => exact course.ordered
  case ending => exact course.ending
  case quoted =>
    intro front error back whole broken
    rw [whole] at course
    exact course.quoted broken

end Courses

end TableFeed
