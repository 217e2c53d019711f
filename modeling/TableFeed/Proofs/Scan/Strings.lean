import Mathlib.Data.Set.Function
import TableFeed.Proofs.Command.RoundTrip
import TableFeed.Proofs.Scan.Course

/-!
# String tokens and the values they say

Where a value is looked for, a quoted value is read as one string token, and the scan goes on
directly behind it. The main statement says that this works for every value, that every string token
of every command comes about in this way, and that quoting and unquoting are inverse to each other.
So the texts of string tokens and the values they say are in bijection.
-/

namespace TableFeed

/-- The texts of the string tokens of all commands. -/
def stringTexts : Set (List Char) :=
  {lexeme | ∃ text, ⟨.string, String.ofList lexeme⟩ ∈ tokensOf text}

section Strings

variable {place next : Place} {blanks value later lexeme : List Char}

/-- A quoted value in front of anything but a quotation mark is one string token. -/
theorem Place.read_quote (looks : place.goal = .value next)
    (ends : later.head? ≠ some quoteMark) :
    place.goal.read (Quoted.quote value ++ later) = .token .string (Quoted.quote value) next := by
  apply (Goal.read_eq_token place.goal_sound).mpr
  rw [looks]
  exact ⟨⟨Or.inr rfl, rfl⟩, ⟨value, rfl⟩, later, rfl, ends⟩

theorem Scanner.next?_quote (looks : place.goal = .value next) (blank : Blank blanks)
    (ends : later.head? ≠ some quoteMark) (position : Nat) :
    (Scanner.mk ⟨position, blanks ++ (Quoted.quote value ++ later)⟩ (.reading place)).next? =
      some (⟨⟨.string, String.ofList (Quoted.quote value)⟩, some (position + byteLength blanks)⟩,
        ⟨⟨position + byteLength blanks + byteLength (Quoted.quote value), later⟩,
          .reading next⟩) := by
  have stops : ∀ character ∈ (Quoted.quote value ++ later).head?, isBlank character = false := by
    rintro character ⟨⟩
    decide
  simp only [next?, Cursor.skipBlanks_eq blank stops, readAt, Place.read_quote looks ends,
    Cursor.advance_eq, tokenAt]

/-- The text of each string token is some quoted value. -/
theorem exists_quote_of_mem_stringTexts (member : lexeme ∈ stringTexts) :
    ∃ value, lexeme = Quoted.quote value := by
  obtain ⟨text, handed⟩ := member
  obtain ⟨taken, last, closing, whole, -, spellings, closes⟩ := tokensOf_leads text
  rw [whole, List.mem_append] at handed
  rcases handed with inside | outside
  · have spelled := spellings _ inside
    rwa [String.toList_ofList] at spelled
  · cases closes with
    | fault stop => simp [Scanner.errorToken, Token.ending] at outside
    | exhausted begun stop => simp [Token.ending] at outside

/-- Behind the words that connect the bridge any quoted value is a string token. -/
theorem quote_mem_stringTexts (value : List Char) : Quoted.quote value ∈ stringTexts := by
  have proper : ∀ part ∈ [Part.word .mysql, .word .connect, .value (String.ofList value)],
      part.Proper :=
    proper_words [.mysql, .connect] (by decide)
      (List.forall_mem_singleton.mpr (proper_value _))
  have leads : Place.start.Leads [.mysql, .connect, .string] .finish :=
    ⟨.bridgeWord, by simp [Place.goal, Goal.Takes, commandWords], .bridgeAddress,
      by simp [Place.goal, Goal.Takes, bridgeWords], .finish, ⟨Or.inr rfl, rfl⟩, rfl⟩
  have spells := spells_intercalate proper
  generalize written : [' '].intercalate _ = text at spells
  have handed : tokensOf (String.ofList text) = _ :=
    Scanner.tokensAt_of_spells spells leads (by decide) String.toList_ofList
  refine ⟨String.ofList text, ?_⟩
  rw [handed]
  simp [Part.token]

end Strings

/-- Quoting and unquoting are inverse to each other, and string tokens are the quoted values: where
a value is looked for, each of them is read as one token, and each string token is one of them. -/
theorem quoting_bijective :
    (∀ place next position blanks value later, Place.goal place = .value next → Blank blanks →
      later.head? ≠ some quoteMark →
      (Scanner.mk ⟨position, blanks ++ (Quoted.quote value ++ later)⟩ (.reading place)).next? =
        some (⟨⟨.string, String.ofList (Quoted.quote value)⟩,
            some (position + byteLength blanks)⟩,
          ⟨⟨position + byteLength blanks + byteLength (Quoted.quote value), later⟩,
            .reading next⟩)) ∧
    (∀ value, Quoted.unquote (Quoted.quote value) = value) ∧
    (∀ text, ∀ token ∈ tokensOf text, token.kind = .string →
      Quoted.quote (Quoted.unquote token.text.toList) = token.text.toList) ∧
    Set.BijOn Quoted.unquote stringTexts Set.univ := by
  have back : ∀ lexeme ∈ stringTexts, Quoted.quote (Quoted.unquote lexeme) = lexeme := by
    intro lexeme member
    obtain ⟨value, rfl⟩ := exists_quote_of_mem_stringTexts member
    rw [Quoted.unquote_quote]
  refine ⟨?_, Quoted.unquote_quote, ?_, ?_⟩
  · intro place next position blanks value later looks blank ends
    exact Scanner.next?_quote looks blank ends position
  · rintro text ⟨kind, lexeme⟩ member rfl
    apply back
    refine ⟨text, ?_⟩
    rwa [String.ofList_toList]
  · have inverse : Set.InvOn Quoted.quote Quoted.unquote stringTexts Set.univ :=
      ⟨back, fun value _ => Quoted.unquote_quote value⟩
    exact inverse.bijOn (Set.mapsTo_univ _ _) fun value _ => quote_mem_stringTexts value

/-- A value that begins and ends with a quotation mark and has a null character inside. -/
theorem quoting_bijective_marks :
    (Place.goal .bridgeAddress = .value .finish ∧ Blank [' '] ∧
      [',', quoteMark].head? ≠ some quoteMark) ∧
    (Scanner.mk ⟨13, [' '] ++ (Quoted.quote [quoteMark, '\x00', quoteMark] ++ [',', quoteMark])⟩
        (.reading .bridgeAddress)).next? =
      some (⟨⟨.string, "\x27\x27\x27\x00\x27\x27\x27"⟩, some 14⟩,
        ⟨⟨21, [',', quoteMark]⟩, .reading .finish⟩) :=
  ⟨⟨rfl, by decide, by decide⟩,
    quoting_bijective.1 _ _ 13 _ _ _ rfl (by decide) (by decide)⟩

end TableFeed
