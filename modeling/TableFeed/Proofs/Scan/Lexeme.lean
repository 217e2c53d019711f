import TableFeed.Scan.Reading
import TableFeed.Proofs.Text.Quoted

/-!
# How tokens are spelled

Each kind of token has its spellings, and what may stand directly behind such a token depends on its
kind. A text begins with a lexeme when the lexeme is such a spelling and the text behind it does not
go on with the same token. The main statements say, for each kind of token, which lexeme this is.
-/

namespace TableFeed

namespace Token.Kind

/-- The kinds that are words. -/
def isKeyword : Kind → Bool
  | help | status | stop | start | create | table | insert | into | values | update | set | delete
  | fromWord | select | subscribe | unsubscribe | whereWord | mysql | connect | disconnect => true
  | _ => false

/-- The kinds that are marks. -/
def isMark : Kind → Bool
  | star | equal | leftParen | rightParen | comma => true
  | _ => false

/-- The spellings of a kind. A name is a letter with letters and digits behind it. A bare value has
no character at which a value ends. A string is a value between quotation marks, and each quotation
mark inside it is written twice. All other kinds are spelled in one way. -/
def Spelling : Kind → List Char → Prop
  | name, lexeme => ∃ first others, lexeme = first :: others ∧ isLetter first = true ∧
      ∀ character ∈ others, isLetterOrDigit character = true
  | value, lexeme => lexeme ≠ [] ∧ ∀ character ∈ lexeme, endsValue character = false
  | string, lexeme => ∃ content, lexeme = Quoted.quote content
  | kind, lexeme => lexeme = kind.spelling.toList

/-- What may stand directly behind a token of a kind, when the given characters end a word. A mark
can have anything behind it. -/
def EndsBefore (endsKeyword : Char → Bool) : Kind → List Char → Prop
  | name, later => ∀ character ∈ later.head?, isLetterOrDigit character = false
  | value, later => ∀ character ∈ later.head?, endsValue character = true
  | string, later => later.head? ≠ some quoteMark
  | kind, later =>
      kind.isKeyword = true → ∀ character ∈ later.head?, endsKeyword character = true

end Token.Kind

/-- A text begins with a lexeme of a kind and does not go on with the same token. -/
def Begins (text : List Char) (kind : Token.Kind) (lexeme : List Char) : Prop :=
  kind.Spelling lexeme ∧ ∃ later, text = lexeme ++ later ∧ kind.EndsBefore endsWord later

/-! ## Longest runs of characters -/

theorem takeWhile_eq_iff {belongs : Char → Bool} {text run : List Char} :
    text.takeWhile belongs = run ↔
      (∀ character ∈ run, belongs character = true) ∧
        ∃ later, text = run ++ later ∧ ∀ character ∈ later.head?, belongs character = false := by
  constructor
  · rintro rfl
    refine ⟨List.all_eq_true.mp List.all_takeWhile, text.dropWhile belongs,
      List.takeWhile_append_dropWhile.symm, ?_⟩
    intro character first
    have outside := List.head?_dropWhile_not belongs text
    rw [Option.mem_def.mp first] at outside
    exact outside
  · rintro ⟨inside, later, rfl, ends⟩
    rw [List.takeWhile_append_of_pos inside]
    cases later with
    | nil => simp
    | cons character later => simp [ends character rfl]

theorem wordOf_eq_iff {text word : List Char} :
    wordOf text = word ↔ (∀ character ∈ word, endsWord character = false) ∧
      ∃ later, text = word ++ later ∧ ∀ character ∈ later.head?, endsWord character = true := by
  simp [wordOf, takeWhile_eq_iff]

theorem bareValueOf_eq_iff {text run : List Char} :
    bareValueOf text = run ↔ (∀ character ∈ run, endsValue character = false) ∧
      ∃ later, text = run ++ later ∧ ∀ character ∈ later.head?, endsValue character = true := by
  simp [bareValueOf, takeWhile_eq_iff]

theorem not_endsWord_of_mem_spelling {kind : Token.Kind} (keyword : kind.isKeyword = true) :
    ∀ character ∈ kind.spelling.toList, endsWord character = false := by
  have unbroken : kind.spelling.toList.any endsWord = false := by
    revert keyword
    cases kind <;> decide +kernel
  intro character member
  exact Bool.eq_false_iff.mpr (List.any_eq_false.mp unbroken character member)

/-! ## Where tokens cannot begin -/

theorem range_of_inRanges {ranges : List (Nat × Nat)} {codePoint : Nat}
    (inside : CharSet.inRanges codePoint ranges = true) :
    ∃ range ∈ ranges, range.1 ≤ codePoint ∧ codePoint ≤ range.2 := by
  induction ranges with
  | nil => nomatch inside
  | cons range ranges ih =>
      rw [CharSet.inRanges] at inside
      split at inside
      · rename_i below
        exact ⟨range, List.mem_cons_self, of_decide_eq_true inside, below⟩
      · obtain ⟨found, member, bounds⟩ := ih inside
        exact ⟨found, List.mem_cons_of_mem _ member, bounds⟩

/-- The blanks are few, so each of them is looked up in the other set. -/
theorem not_contains_of_isBlank {set : CharSet}
    (apart : ∀ range ∈ CharSet.whiteSpace.ranges, ∀ offset ≤ range.2 - range.1,
      CharSet.inRanges (range.1 + offset) set.ranges = false)
    {character : Char} (blank : isBlank character = true) : set.contains character = false := by
  obtain ⟨range, member, low, high⟩ := range_of_inRanges blank
  have outside := apart range member (character.toNat - range.1) (Nat.sub_le_sub_right high _)
  rwa [Nat.add_sub_cancel' low] at outside

theorem not_isLetter_of_isBlank {character : Char} (blank : isBlank character = true) :
    isLetter character = false :=
  not_contains_of_isBlank (by decide +kernel) blank

theorem not_isLetterOrDigit_of_isBlank {character : Char} (blank : isBlank character = true) :
    isLetterOrDigit character = false := by
  have noDigit : CharSet.numeric.contains character = false :=
    not_contains_of_isBlank (by decide +kernel) blank
  rw [isLetterOrDigit, not_isLetter_of_isBlank blank, noDigit, Bool.or_false]

theorem not_endsWord_of_isLetter {character : Char} (letter : isLetter character = true) :
    endsWord character = false := by
  cases ends : endsWord character with
  | false => rfl
  | true =>
      rw [endsWord, Bool.or_eq_true, beq_iff_eq] at ends
      rcases ends with blank | rfl
      · rw [not_isLetter_of_isBlank blank] at letter
        nomatch letter
      · revert letter
        decide +kernel

theorem not_endsWord_of_not_endsValue {character : Char}
    (inside : endsValue character = false) : endsWord character = false := by
  simp only [endsValue, Bool.or_eq_false_iff] at inside
  exact inside.1.1.1.1

/-- No token is spelled by nothing, and none of them begins where a word ends. -/
theorem Token.Kind.Spelling.begins {kind : Token.Kind} {lexeme : List Char}
    (spelled : kind.Spelling lexeme) :
    ∃ first others, lexeme = first :: others ∧ endsWord first = false := by
  have fixed : ∀ kind : Token.Kind, ∃ first others,
      kind.spelling.toList = first :: others ∧ endsWord first = false := by
    intro kind
    cases kind <;> exact ⟨_, _, by rfl, by decide +kernel⟩
  cases kind with
  | name =>
      obtain ⟨first, others, rfl, letter, -⟩ := spelled
      exact ⟨first, others, rfl, not_endsWord_of_isLetter letter⟩
  | value =>
      obtain ⟨occupied, inside⟩ := spelled
      obtain ⟨first, others, rfl⟩ := List.exists_cons_of_ne_nil occupied
      exact ⟨first, others, rfl, not_endsWord_of_not_endsValue (inside first List.mem_cons_self)⟩
  | string =>
      obtain ⟨content, rfl⟩ := spelled
      exact ⟨quoteMark, _, rfl, by decide +kernel⟩
  | _ =>
      obtain rfl : lexeme = _ := spelled
      exact fixed _

/-! ## What each kind of token begins with -/

section Begins

variable {kind : Token.Kind} {text lexeme : List Char} {first : Char} {later : List Char}

theorem spelling_eq_of_isKeyword (keyword : kind.isKeyword = true) :
    kind.Spelling lexeme ↔ lexeme = kind.spelling.toList := by
  revert keyword
  cases kind <;> simp [Token.Kind.isKeyword, Token.Kind.Spelling]

theorem spelling_eq_of_isMark (mark : kind.isMark = true) :
    kind.Spelling lexeme ↔ lexeme = kind.spelling.toList := by
  revert mark
  cases kind <;> simp [Token.Kind.isMark, Token.Kind.Spelling]

theorem endsBefore_of_isKeyword {endsKeyword : Char → Bool} (keyword : kind.isKeyword = true) :
    kind.EndsBefore endsKeyword later ↔
      ∀ character ∈ later.head?, endsKeyword character = true := by
  revert keyword
  cases kind <;> simp [Token.Kind.isKeyword, Token.Kind.EndsBefore]

theorem endsBefore_of_isMark {endsKeyword : Char → Bool} (mark : kind.isMark = true) :
    kind.EndsBefore endsKeyword later := by
  revert mark
  cases kind <;> simp [Token.Kind.isKeyword, Token.Kind.isMark, Token.Kind.EndsBefore]

theorem begins_keyword (keyword : kind.isKeyword = true) :
    Begins text kind lexeme ↔ wordOf text = lexeme ∧ kind.spelling.toList = lexeme := by
  simp only [Begins, spelling_eq_of_isKeyword keyword, endsBefore_of_isKeyword keyword,
    wordOf_eq_iff]
  constructor
  · rintro ⟨rfl, apart⟩
    exact ⟨⟨not_endsWord_of_mem_spelling keyword, apart⟩, rfl⟩
  · rintro ⟨⟨-, apart⟩, same⟩
    exact ⟨same.symm, apart⟩

theorem begins_mark (mark : kind.isMark = true) {symbol : Char}
    (spelled : kind.spelling.toList = [symbol]) :
    Begins (first :: later) kind lexeme ↔ first = symbol ∧ [first] = lexeme := by
  simp only [Begins, spelling_eq_of_isMark mark, endsBefore_of_isMark mark, spelled, and_true]
  constructor
  · rintro ⟨rfl, rest, split⟩
    obtain ⟨rfl, -⟩ := List.cons.inj split
    exact ⟨rfl, rfl⟩
  · rintro ⟨rfl, rfl⟩
    exact ⟨rfl, later, rfl⟩

theorem begins_name :
    Begins (first :: later) .name lexeme ↔
      isLetter first = true ∧ first :: later.takeWhile isLetterOrDigit = lexeme := by
  constructor
  · rintro ⟨⟨_, others, rfl, letter, inside⟩, rest, split, ends⟩
    obtain ⟨rfl, rfl⟩ := List.cons.inj split
    exact ⟨letter, congrArg _ (takeWhile_eq_iff.mpr ⟨inside, rest, rfl, ends⟩)⟩
  · rintro ⟨letter, rfl⟩
    obtain ⟨inside, rest, split, ends⟩ := takeWhile_eq_iff.mp (Eq.refl (later.takeWhile _))
    exact ⟨⟨first, _, rfl, letter, inside⟩, rest, congrArg _ split, ends⟩

theorem begins_value :
    Begins (first :: later) .value lexeme ↔
      endsValue first = false ∧ first :: bareValueOf later = lexeme := by
  constructor
  · rintro ⟨⟨occupied, inside⟩, rest, split, ends⟩
    cases lexeme with
    | nil => exact (occupied rfl).elim
    | cons _ others =>
        obtain ⟨rfl, rfl⟩ := List.cons.inj split
        rw [List.forall_mem_cons] at inside
        exact ⟨inside.1, congrArg _ (bareValueOf_eq_iff.mpr ⟨inside.2, rest, rfl, ends⟩)⟩
  · rintro ⟨bare, rfl⟩
    obtain ⟨inside, rest, split, ends⟩ := bareValueOf_eq_iff.mp (Eq.refl (bareValueOf later))
    refine ⟨⟨List.cons_ne_nil _ _, ?_⟩, rest, congrArg _ split, ends⟩
    exact List.forall_mem_cons.mpr ⟨bare, inside⟩

theorem begins_string :
    Begins (first :: later) .string lexeme ↔
      first = quoteMark ∧
        ∃ part, Quoted.closed? later = some part ∧ quoteMark :: part = lexeme := by
  constructor
  · rintro ⟨⟨content, rfl⟩, rest, split, ends⟩
    have opened : Quoted.quote content ++ rest =
        quoteMark :: (Quoted.double content ++ quoteMark :: rest) := by
      simp [Quoted.quote]
    rw [opened] at split
    obtain ⟨rfl, rfl⟩ := List.cons.inj split
    exact ⟨rfl, _, Quoted.closed?_double content ends, rfl⟩
  · rintro ⟨rfl, part, found, rfl⟩
    obtain ⟨content, rest, rfl, rfl, ends⟩ := Quoted.doubled_of_closed? found
    refine ⟨⟨content, rfl⟩, rest, ?_, ends⟩
    simp

theorem not_begins_nil : ¬ Begins [] kind lexeme := by
  rintro ⟨spelled, later, split, -⟩
  obtain ⟨rfl, -⟩ := List.append_eq_nil_iff.mp split.symm
  obtain ⟨first, others, split, -⟩ := spelled.begins
  nomatch split

end Begins

end TableFeed
