import TableFeed.Proofs.Scan.Delivery
import TableFeed.Proofs.Scan.Tiling

/-!
# Tokens are as long as they can be

The text of a token looks as its kind says, and what stands behind it in the command is no part of
it. The main statement says what this means for each kind, for every token of every text. It says
too that no token is cut short: with some more characters from behind it, its text would no longer
be a spelling of its kind.
-/

namespace TableFeed

/-- Quotation marks stand in a text only in pairs of neighbours. -/
inductive Paired : List Char → Prop
  | nil : Paired []
  | plain {character : Char} {later : List Char} (different : character ≠ quoteMark)
      (paired : Paired later) : Paired (character :: later)
  | pair {later : List Char} (paired : Paired later) : Paired (quoteMark :: quoteMark :: later)

/-- A lexeme looks as its kind says, and what stands behind it is no part of it. -/
structure Munched (kind : Token.Kind) (lexeme later : List Char) : Prop where
  fixed : kind ∉ [Token.Kind.name, .value, .string] → lexeme = kind.spelling.toList
  keyword : kind.isKeyword = true →
    ∀ character ∈ later.head?, isBlank character = true ∨ character = '\x00'
  name : kind = .name →
    (∃ first others, lexeme = first :: others ∧ isLetter first = true ∧
      ∀ character ∈ others, isLetterOrDigit character = true) ∧
    ∀ character ∈ later.head?, isLetterOrDigit character = false
  value : kind = .value → lexeme ≠ [] ∧
    (∀ character ∈ lexeme,
      isBlank character = false ∧ character ∉ ['\x00', quoteMark, ',', '(', ')']) ∧
    ∀ character ∈ later.head?,
      isBlank character = true ∨ character ∈ ['\x00', quoteMark, ',', '(', ')']
  string : kind = .string →
    (∃ inner, lexeme = quoteMark :: (inner ++ [quoteMark]) ∧ Paired inner) ∧
    later.head? ≠ some quoteMark
  longest : ∀ more, more <+: later → kind.Spelling (lexeme ++ more) → more = []

section Kinds

variable {kind : Token.Kind} {lexeme later more : List Char} {character : Char}

theorem paired_double (value : List Char) : Paired (Quoted.double value) := by
  induction value with
  | nil => exact .nil
  | cons character later ih =>
      rw [Quoted.double]
      split
      · exact .pair ih
      · rename_i different
        exact .plain different ih

theorem endsValue_iff : endsValue character = true ↔
    isBlank character = true ∨ character ∈ ['\x00', quoteMark, ',', '(', ')'] := by
  simp [endsValue, endsWord, or_assoc]

theorem not_endsValue_iff : endsValue character = false ↔
    isBlank character = false ∧ character ∉ ['\x00', quoteMark, ',', '(', ')'] := by
  rw [← Bool.not_eq_true, endsValue_iff, not_or, Bool.not_eq_true]

/-- The first of some more characters stands directly behind the lexeme. -/
theorem mem_head?_of_isPrefix {first : Char} {others : List Char}
    (begins : first :: others <+: later) : first ∈ later.head? := by
  obtain ⟨rest, rfl⟩ := begins
  rfl

/-- A quoted value cannot be longer, because the closing quotation mark would have to pair with the
character behind it. -/
theorem eq_nil_of_quote {value other : List Char} (ends : more.head? ≠ some quoteMark)
    (longer : Quoted.quote value ++ more = Quoted.quote other) : more = [] := by
  have split : Quoted.double value ++ quoteMark :: more = Quoted.double other ++ [quoteMark] := by
    simpa [Quoted.quote] using longer
  have whole : Quoted.closed? (Quoted.double other ++ [quoteMark]) =
      some (Quoted.double other ++ [quoteMark]) := Quoted.closed?_double other (by simp)
  rw [← split, Quoted.closed?_double value ends] at whole
  have same := List.append_cancel_left (Option.some.inj whole)
  exact (List.cons.inj same).2.symm

theorem eq_nil_of_spelling (spelled : kind.Spelling lexeme) (ends : kind.EndsBefore endsWord later)
    (behind : more <+: later) (longer : kind.Spelling (lexeme ++ more)) : more = [] := by
  cases kind with
  | name =>
      obtain ⟨first, others, rfl, -, -⟩ := spelled
      obtain ⟨_, _, split, -, inside⟩ := longer
      obtain ⟨rfl, rfl⟩ := List.cons.inj split
      cases more with
      | nil => rfl
      | cons next more =>
          have outside := ends next (mem_head?_of_isPrefix behind)
          rw [inside next (by simp)] at outside
          nomatch outside
  | value =>
      cases more with
      | nil => rfl
      | cons next more =>
          have outside := longer.2 next (by simp)
          rw [ends next (mem_head?_of_isPrefix behind)] at outside
          nomatch outside
  | string =>
      obtain ⟨value, rfl⟩ := spelled
      obtain ⟨other, longer⟩ := longer
      apply eq_nil_of_quote ?_ longer
      intro first
      obtain ⟨others, rfl⟩ := List.head?_eq_some_iff.mp first
      exact ends (mem_head?_of_isPrefix behind)
  | _ =>
      obtain rfl : lexeme = _ := spelled
      exact List.append_cancel_left (longer.trans (List.append_nil _).symm)

/-- A spelling that ends where tokens of its kind end is as long as it can be. -/
theorem munched_of_spelling (spelled : kind.Spelling lexeme)
    (ends : kind.EndsBefore endsWord later) : Munched kind lexeme later where
  fixed other := by
    cases kind with
    | name | value | string => simp at other
    | _ => exact spelled
  keyword isKeyword character first := by
    have endsHere := (endsBefore_of_isKeyword isKeyword).mp ends character first
    rw [endsWord, Bool.or_eq_true, beq_iff_eq] at endsHere
    exact endsHere
  name := by
    rintro rfl
    exact ⟨spelled, ends⟩
  value := by
    rintro rfl
    obtain ⟨occupied, inside⟩ := spelled
    exact ⟨occupied, fun character member => not_endsValue_iff.mp (inside character member),
      fun character first => endsValue_iff.mp (ends character first)⟩
  string := by
    rintro rfl
    obtain ⟨value, rfl⟩ := spelled
    exact ⟨⟨_, rfl, paired_double value⟩, ends⟩
  longest more behind longer := eq_nil_of_spelling spelled ends behind longer

end Kinds

/-- Every token of a text stands in it at its position, looks as its kind says, and is as long as it
can be there. -/
theorem munched_of_mem_scan (text : String) (placed : PlacedToken) (member : placed ∈ scan text)
    (sound : placed.token.kind ≠ .error) (inside : placed.token.kind ≠ .endOfInput) :
    ∃ before later, text = before ++ placed.token.text ++ later ∧
      placed.position = some before.utf8ByteSize ∧
      Munched placed.token.kind placed.token.text.toList later.toList := by
  obtain ⟨front, back, whole⟩ := List.append_of_mem member
  have course : Course .start 0 text.toList (scan text) :=
    Scanner.course_of_reading .start (.atStart text)
  rw [whole] at course
  obtain ⟨start, rest, next, split, -, behind⟩ := course.cut_start inside
  cases behind with
  | @token _ _ _ blanks lexeme later kind _ blank takes spelled ends further =>
      refine ⟨String.ofList (start ++ blanks), String.ofList later, ?_, ?_, ?_⟩
      · rw [← String.ofList_append, ← String.ofList_append, List.append_assoc, List.append_assoc,
          ← split, String.ofList_toList]
      · rw [← byteLength_eq, byteLength_append]
      · rw [String.toList_ofList, String.toList_ofList]
        exact munched_of_spelling spelled ends
  | fault blank stops found => exact (sound rfl).elim
  | exhausted begun blank => exact (inside rfl).elim

/-- A quoted address with a pair of quotation marks inside. -/
theorem munched_quotedAddress :
    (⟨⟨.string, "\x27it\x27\x27s\x27"⟩, some 14⟩ ∈ scan "mysql connect \x27it\x27\x27s\x27 x" ∧
      Token.Kind.string ≠ .error ∧ Token.Kind.string ≠ .endOfInput) ∧
    ∃ before later, "mysql connect \x27it\x27\x27s\x27 x" =
        before ++ "\x27it\x27\x27s\x27" ++ later ∧
      some 14 = some before.utf8ByteSize ∧
      Munched .string "\x27it\x27\x27s\x27".toList later.toList := by
  have member : ⟨⟨.string, "\x27it\x27\x27s\x27"⟩, some 14⟩ ∈
      scan "mysql connect \x27it\x27\x27s\x27 x" := by
    have pulled := Scanner.pull_drained 3 (.ofText "mysql connect \x27it\x27\x27s\x27 x")
    rw [scan, ← pulled]
    exact List.mem_append_left _ (by decide +kernel)
  exact ⟨⟨member, nofun, nofun⟩, munched_of_mem_scan _ _ member nofun nofun⟩

end TableFeed
