import TableFeed.Proofs.Scan.Spells

/-!
# The course of a scan

A scan goes from place to place. At each place it skips the blanks and finds a token, and in the end
it meets a fault or runs out of text. The main statements say that every scan takes such a course,
and that a course can be cut in front of any token of it. So what holds of the whole course is shown
one token at a time.
-/

namespace TableFeed

/-- How a scan goes on at a place, with the given number of bytes in front of the rest of the text.
The tokens are those that it still hands out. -/
inductive Course : Place → Nat → List Char → List PlacedToken → Prop
  | token {place next : Place} {position : Nat} {blanks lexeme later : List Char}
      {kind : Token.Kind} {others : List PlacedToken} (blank : Blank blanks)
      (takes : place.goal.Takes kind next) (spelled : kind.Spelling lexeme)
      (ends : kind.EndsBefore endsWord later)
      (course : Course next (position + byteLength blanks + byteLength lexeme) later others) :
      Course place position (blanks ++ (lexeme ++ later))
        (⟨⟨kind, String.ofList lexeme⟩, some (position + byteLength blanks)⟩ :: others)
  | fault {place : Place} {position : Nat} {blanks lexeme later : List Char} {fault : Fault}
      (blank : Blank blanks)
      (stops : ∀ character ∈ (lexeme ++ later).head?, isBlank character = false)
      (found : place.goal.read (lexeme ++ later) = .fault fault lexeme) :
      Course place position (blanks ++ (lexeme ++ later))
        [Scanner.errorToken fault lexeme,
          ⟨.ending, some (position + byteLength blanks + byteLength lexeme)⟩]
  | exhausted {place : Place} {position : Nat} {blanks : List Char} (begun : place ≠ .start)
      (blank : Blank blanks) :
      Course place position blanks [⟨.ending, some (position + byteLength blanks)⟩]

theorem byteLength_append (start others : List Char) :
    byteLength (start ++ others) = byteLength start + byteLength others := by
  induction start with
  | nil => simp [byteLength]
  | cons character start ih =>
      simp only [List.cons_append, byteLength, ih]
      omega

theorem byteLength_pos {text : List Char} (occupied : text ≠ []) : 0 < byteLength text := by
  cases text with
  | nil => exact (occupied rfl).elim
  | cons character later =>
      have width := Char.utf8Size_pos character
      simp only [byteLength]
      omega

theorem eq_nil_of_byteLength {text : List Char} (nothing : byteLength text = 0) : text = [] := by
  by_contra occupied
  exact (byteLength_pos occupied).ne' nothing

theorem byteLength_le_of_isPrefix {start text : List Char} (starts : start <+: text) :
    byteLength start ≤ byteLength text := by
  obtain ⟨later, rfl⟩ := starts
  rw [byteLength_append]
  exact Nat.le_add_right _ _

theorem byteLength_eq (text : List Char) :
    byteLength text = (String.ofList text).utf8ByteSize := by
  induction text with
  | nil => rfl
  | cons character later ih =>
      rw [byteLength, ih, String.ofList_cons, String.utf8ByteSize_append,
        String.utf8ByteSize_singleton]

namespace Cursor

variable {cursor : Cursor} {position : Nat} {blanks lexeme later : List Char}

theorem advance_position (split : cursor.rest = lexeme ++ later) :
    (cursor.advance lexeme.length).position = cursor.position + byteLength lexeme := by
  simp [advance, split]

theorem advance_rest_of_append (split : cursor.rest = lexeme ++ later) :
    (cursor.advance lexeme.length).rest = later := by
  simp [advance, split]

theorem skipBlanks_position (cursor : Cursor) :
    cursor.skipBlanks.position =
      cursor.position + byteLength (cursor.rest.takeWhile isBlank) :=
  advance_position List.takeWhile_append_dropWhile.symm

theorem advance_eq :
    (Cursor.mk position (lexeme ++ later)).advance lexeme.length =
      ⟨position + byteLength lexeme, later⟩ := by
  simp [advance]

theorem skipBlanks_eq (blank : Blank blanks)
    (stops : ∀ character ∈ later.head?, isBlank character = false) :
    (Cursor.mk position (blanks ++ later)).skipBlanks = ⟨position + byteLength blanks, later⟩ := by
  have run : (blanks ++ later).takeWhile isBlank = blanks :=
    takeWhile_eq_iff.mpr ⟨blank, later, rfl, stops⟩
  rw [skipBlanks, run, advance_eq]

end Cursor

theorem blank_takeWhile (text : List Char) : Blank (text.takeWhile isBlank) :=
  List.all_eq_true.mp List.all_takeWhile

namespace Scanner

/-- Every scan takes its course. -/
theorem course_of_reading (place : Place) (cursor : Cursor) :
    Course place cursor.position cursor.rest (Scanner.mk cursor (.reading place)).tokens := by
  induction length : cursor.rest.length using Nat.strong_induction_on generalizing place cursor with
  | _ count ih =>
      have whole := List.takeWhile_append_dropWhile (p := isBlank) (l := cursor.rest)
      have blank := blank_takeWhile cursor.rest
      have skipped := cursor.skipBlanks_rest
      have behind := cursor.skipBlanks_position
      have stops := List.head?_dropWhile_not isBlank cursor.rest
      rw [tokens_reading]
      generalize cursor.rest.takeWhile isBlank = blanks at whole blank behind
      generalize cursor.rest.dropWhile isBlank = rest at whole skipped stops ⊢
      cases reading : place.goal.read rest with
      | token kind lexeme next =>
          obtain ⟨takes, spelled, later, rfl, ends⟩ :=
            (Goal.read_eq_token place.goal_sound).mp reading
          have shorter : later.length < count := by
            have occupied : lexeme ≠ [] := by
              have advances := place.goal.read_advances (lexeme ++ later)
              rwa [reading] at advances
            have positive := List.length_pos_iff.mpr occupied
            have total := congrArg List.length whole
            simp only [List.length_append] at total
            omega
          have further := Cursor.advance_rest_of_append skipped
          have course := ih later.length shorter next (cursor.skipBlanks.advance lexeme.length)
            (congrArg List.length further)
          rw [further, Cursor.advance_position skipped, behind] at course
          have found := Course.token blank takes spelled ends course
          rw [whole, ← behind] at found
          exact found
      | fault fault lexeme =>
          obtain ⟨⟨later, rfl⟩, -⟩ := Goal.refuses_of_read reading
          have outside : ∀ character ∈ (lexeme ++ later).head?, isBlank character = false := by
            intro character first
            rwa [Option.mem_def.mp first] at stops
          have found : Course place cursor.position _ _ := .fault blank outside reading
          rw [whole, ← behind, ← Cursor.advance_position skipped] at found
          exact found
      | exhausted =>
          obtain rfl := Goal.eq_nil_of_read reading
          have begun : place ≠ .start := by
            intro start
            subst place
            nomatch reading
          have found : Course place cursor.position _ _ := .exhausted begun blank
          rw [List.append_nil] at whole
          rw [← behind, whole] at found
          exact found

/-- A scanner takes no other course. -/
theorem tokens_of_course {place : Place} {position : Nat} {text : List Char}
    {tokens : List PlacedToken} (course : Course place position text tokens) :
    (Scanner.mk ⟨position, text⟩ (.reading place)).tokens = tokens := by
  induction course with
  | @token place next position blanks lexeme later kind others blank takes spelled ends course ih =>
      have reading : place.goal.read (lexeme ++ later) = .token kind lexeme next :=
        (Goal.read_eq_token place.goal_sound).mpr ⟨takes, spelled, later, rfl, ends⟩
      have stops : ∀ character ∈ (lexeme ++ later).head?, isBlank character = false := by
        obtain ⟨first, rest, rfl, inside⟩ := spelled.begins
        rintro character ⟨⟩
        exact not_isBlank_of_not_endsWord inside
      rw [tokens_reading, ← Cursor.skipBlanks_rest, Cursor.skipBlanks_eq blank stops, reading]
      simp only [Cursor.advance_eq, ih, tokenAt]
  | fault blank stops found =>
      rw [tokens_reading, ← Cursor.skipBlanks_rest, Cursor.skipBlanks_eq blank stops, found]
      simp only [Cursor.advance_eq, endingAt]
  | @exhausted place position blanks begun blank =>
      have skipped : (Cursor.mk position blanks).skipBlanks =
          ⟨position + byteLength blanks, []⟩ := by
        rw [← Cursor.skipBlanks_eq blank (by simp), List.append_nil]
      rw [tokens_reading, ← Cursor.skipBlanks_rest, skipped, Place.read_nil begun]
      rfl

end Scanner

/-- The tokens that end a scan, which stops at the given place. In front of a command a scan never
ends without a fault. -/
inductive Closing (place : Place) : List PlacedToken → Prop
  | fault {fault : Fault} {lexeme : List Char} (stop : Nat) :
      Closing place [Scanner.errorToken fault lexeme, ⟨.ending, some stop⟩]
  | exhausted (begun : place ≠ .start) (stop : Nat) : Closing place [⟨.ending, some stop⟩]

/-- The number of bytes up to the end of the last of some tokens. Without a token it is the given
number. -/
def reach (position : Nat) : List PlacedToken → Nat
  | [] => position
  | placed :: later => reach (placed.position.getD 0 + placed.token.text.utf8ByteSize) later

section Course

variable {place : Place} {position : Nat} {text : List Char} {placed : PlacedToken}
variable {tokens front back : List PlacedToken}

/-- The tokens of a course lead from place to place, and the tokens that end a scan stand behind
them. -/
theorem Course.leads (course : Course place position text tokens) :
    ∃ taken last closing, tokens = taken ++ closing ∧
      place.Leads (taken.map fun placed => placed.token.kind) last ∧
      (∀ placed ∈ taken, placed.token.kind.Spelling placed.token.text.toList) ∧
      Closing last closing := by
  induction course with
  | @token place next position blanks lexeme later kind others blank takes spelled ends course ih =>
      obtain ⟨taken, last, closing, rfl, leads, spellings, closes⟩ := ih
      refine ⟨_ :: taken, last, closing, rfl, ⟨next, takes, leads⟩, ?_, closes⟩
      have sameText : (String.ofList lexeme).toList = lexeme := String.toList_ofList
      exact List.forall_mem_cons.mpr ⟨by rwa [sameText], spellings⟩
  | @fault place position blanks lexeme later fault blank stops found =>
      exact ⟨[], place, _, rfl, rfl, nofun, .fault _⟩
  | @exhausted place position blanks begun blank =>
      exact ⟨[], place, _, rfl, rfl, nofun, .exhausted begun _⟩

/-- Behind a fault only the end of the command is handed out. -/
theorem Course.no_error_before (course : Course place position text (front ++ placed :: back))
    (inside : placed.token.kind ≠ .endOfInput) :
    ∀ other ∈ front, other.token.kind ≠ .error := by
  induction front generalizing place position text with
  | nil => nofun
  | cons first front ih =>
      generalize whole : first :: front ++ placed :: back = tokens at course
      rw [List.cons_append] at whole
      cases course with
      | token blank takes spelled ends course =>
          obtain ⟨rfl, rfl⟩ := List.cons.inj whole
          have sound := (takes.isToken place.goal_sound).2
          exact List.forall_mem_cons.mpr ⟨sound, ih course⟩
      | fault blank stops found =>
          -- The fault would have to be the first token, and only the end stands behind it.
          obtain ⟨-, others⟩ := List.cons.inj whole
          cases front with
          | nil =>
              obtain ⟨rfl, -⟩ := List.cons.inj others
              exact (inside rfl).elim
          | cons second front => simp at others
      | exhausted begun blank => simp at whole

/-- A course can be cut in front of any token. What stands behind the cut is a course again, as far
as no fault was found before. -/
theorem Course.cut (course : Course place position text (front ++ back)) (occupied : back ≠ [])
    (sound : ∀ placed ∈ front, placed.token.kind ≠ .error) :
    ∃ before later next, text = before ++ later ∧
      Course next (position + byteLength before) later back ∧
      reach position front = position + byteLength before := by
  induction front generalizing place position text with
  | nil => exact ⟨[], text, place, rfl, course, rfl⟩
  | cons first front ih =>
      generalize whole : first :: front ++ back = tokens at course
      rw [List.cons_append] at whole
      obtain ⟨firstSound, frontSound⟩ := List.forall_mem_cons.mp sound
      cases course with
      | @token _ next _ blanks lexeme rest kind others blank takes spelled ends course =>
          obtain ⟨rfl, rfl⟩ := List.cons.inj whole
          obtain ⟨before, later, last, rfl, behind, reached⟩ := ih course frontSound
          refine ⟨blanks ++ (lexeme ++ before), later, last, by simp, ?_, ?_⟩
          · rw [byteLength_append, byteLength_append, ← Nat.add_assoc, ← Nat.add_assoc]
            exact behind
          · rw [reach, byteLength_append, byteLength_append, ← Nat.add_assoc, ← Nat.add_assoc,
              ← reached, byteLength_eq lexeme]
            rfl
      | fault blank stops found =>
          obtain ⟨rfl, -⟩ := List.cons.inj whole
          exact (firstSound rfl).elim
      | exhausted begun blank =>
          obtain ⟨-, nothing⟩ := List.cons.inj whole
          exact (occupied (List.append_eq_nil_iff.mp nothing).2).elim

/-- The tokens of a text lead from the start of a command to some place, and the tokens that end a
scan stand behind them. -/
theorem tokensOf_leads (text : String) :
    ∃ taken last closing, tokensOf text = taken ++ closing.map PlacedToken.token ∧
      Place.start.Leads (taken.map Token.kind) last ∧
      (∀ token ∈ taken, token.kind.Spelling token.text.toList) ∧ Closing last closing := by
  have course : Course .start 0 text.toList (scan text) :=
    Scanner.course_of_reading .start (.atStart text)
  obtain ⟨taken, last, closing, whole, leads, spellings, closes⟩ := course.leads
  refine ⟨taken.map PlacedToken.token, last, closing, ?_, ?_, List.forall_mem_map.mpr spellings,
    closes⟩
  · rw [tokensOf, whole, List.map_append]
  · rwa [List.map_map]

end Course

end TableFeed
