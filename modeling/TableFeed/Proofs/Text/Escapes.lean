import Mathlib.Data.List.Nodup
import TableFeed.Text.JsonValue

/-!
# Escaped texts can be read back

In JSON strings and in string literals most characters stand for themselves. A backslash announces
that what follows stands for another character: a mark, or the letter `u` with a code. The main
statements say that a JSON string, and a string literal, tells which text was written and where it
ends, whatever stands behind it.
-/

namespace TableFeed

/-- What is written tells for what it was written and where it ends, whatever stands behind it. -/
def SelfDelimiting {α : Type} (write : α → List Char) : Prop :=
  ∀ ⦃value other rest others⦄,
    write value ++ rest = write other ++ others → value = other ∧ rest = others

theorem SelfDelimiting.injective {α : Type} {write : α → List Char}
    (delimits : SelfDelimiting write) : Function.Injective write := by
  intro value other same
  exact (delimits (congrArg (· ++ []) same)).1

/-- A text is cut in one way only at the first place where a character stands. -/
theorem cut_unique {α : Type} {mark : α} {front other rest others : List α} (free : mark ∉ front)
    (otherFree : mark ∉ other) (same : front ++ mark :: rest = other ++ mark :: others) :
    front = other ∧ rest = others := by
  rcases List.append_eq_append_iff.mp same with ⟨between, rfl, split⟩ | ⟨between, rfl, split⟩
  all_goals
    cases between with
    | nil => simpa [eq_comm] using split
    | cons first between =>
        obtain ⟨rfl, -⟩ := List.cons.inj split
        simp at free otherFree

/-- A way to escape characters, by marks and by codes. Different characters have different marks and
codes, and a code tells where it ends. -/
structure Escaping where
  marks : List (Char × Char)
  code : Char → List Char → Prop
  distinct : (marks.map Prod.snd).Nodup
  announced : 'u' ∉ marks.map Prod.snd
  delimited : ∀ ⦃character other digits otherDigits rest others⦄, code character digits →
    code other otherDigits → digits ++ rest = otherDigits ++ others →
      character = other ∧ rest = others

namespace Escaping

/-- What stands for a character: the character itself, or a mark or a code behind a backslash. -/
inductive Writes (escaping : Escaping) (character : Char) : List Char → Prop
  | plain (inside : character ≠ '"') (sound : character ≠ '\\') :
      escaping.Writes character [character]
  | mark {mark : Char} (marked : (character, mark) ∈ escaping.marks) :
      escaping.Writes character ['\\', mark]
  | code {digits : List Char} (coded : escaping.code character digits) :
      escaping.Writes character ('\\' :: 'u' :: digits)

variable {escaping : Escaping} {character other : Char} {written otherWritten : List Char}
variable {rest others : List Char}

theorem not_announced (escaping : Escaping) (character : Char) :
    (character, 'u') ∉ escaping.marks := by
  intro marked
  exact escaping.announced (List.mem_map_of_mem marked)

/-- No quotation mark stands where a character begins. -/
theorem Writes.head_ne (writes : escaping.Writes character written) (rest : List Char) :
    (written ++ rest).head? ≠ some '"' := by
  cases writes with
  | plain inside sound => simpa using inside
  | mark marked => simp
  | code coded => simp

theorem Writes.unique (writes : escaping.Writes character written)
    (otherWrites : escaping.Writes other otherWritten)
    (same : written ++ rest = otherWritten ++ others) : character = other ∧ rest = others := by
  cases writes with
  | plain inside sound =>
      cases otherWrites with
      | plain => simpa using same
      | mark => exact (sound (List.cons.inj same).1).elim
      | code => exact (sound (List.cons.inj same).1).elim
  | @mark mark marked =>
      cases otherWrites with
      | plain inside sound => exact (sound (List.cons.inj same).1.symm).elim
      | mark otherMarked =>
          obtain ⟨rfl, rfl⟩ : mark = _ ∧ rest = others := by simpa using same
          have equal := List.inj_on_of_nodup_map escaping.distinct marked otherMarked rfl
          exact ⟨congrArg Prod.fst equal, rfl⟩
      | code coded =>
          obtain ⟨rfl, -⟩ : mark = 'u' ∧ _ := by simpa using same
          exact (escaping.not_announced _ marked).elim
  | @code digits coded =>
      cases otherWrites with
      | plain inside sound => exact (sound (List.cons.inj same).1.symm).elim
      | mark otherMarked =>
          obtain ⟨rfl, -⟩ : 'u' = _ ∧ _ := by simpa using same
          exact (escaping.not_announced _ otherMarked).elim
      | code otherCoded =>
          have behind := (List.cons.inj (List.cons.inj same).2).2
          exact escaping.delimited coded otherCoded behind

/-- The text between quotation marks ends at the first of them that no character contains. -/
theorem body_unique {write : Char → List Char}
    (writes : ∀ character, escaping.Writes character (write character))
    {text otherText rest others : List Char}
    (same : text.flatMap write ++ '"' :: rest = otherText.flatMap write ++ '"' :: others) :
    text = otherText ∧ rest = others := by
  induction text generalizing otherText with
  | nil =>
      cases otherText with
      | nil => simpa using same
      | cons other otherText =>
          rw [List.flatMap_cons, List.append_assoc] at same
          exact ((writes other).head_ne _ (congrArg List.head? same).symm).elim
  | cons character text ih =>
      cases otherText with
      | nil =>
          rw [List.flatMap_cons, List.append_assoc] at same
          exact ((writes character).head_ne _ (congrArg List.head? same)).elim
      | cons other otherText =>
          rw [List.flatMap_cons, List.append_assoc, List.flatMap_cons, List.append_assoc] at same
          obtain ⟨rfl, further⟩ := (writes character).unique (writes other) same
          obtain ⟨rfl, rfl⟩ := ih further
          exact ⟨rfl, rfl⟩

theorem selfDelimiting_quoted {write : Char → String}
    (writes : ∀ character, escaping.Writes character (write character).toList) :
    SelfDelimiting fun text : String =>
      ("\"" ++ String.join (text.toList.map write) ++ "\"").toList := by
  intro text other rest others same
  simp only [String.toList_append, String.toList_join, List.flatMap_map, List.append_assoc] at same
  obtain ⟨sameText, behind⟩ := body_unique writes (List.cons.inj same).2
  exact ⟨String.toList_inj.mp sameText, behind⟩

end Escaping

/-! ## Digits in base sixteen -/

theorem digitChar_inj {digit other : Nat} (small : digit < 16) (otherSmall : other < 16)
    (same : digit.digitChar = other.digitChar) : digit = other := by
  have distinct : ∀ digit other : Fin 16, digit.val.digitChar = other.val.digitChar →
      digit = other := by decide
  exact congrArg Fin.val (distinct ⟨digit, small⟩ ⟨other, otherSmall⟩ same)

theorem toDigits_inj {number other : Nat}
    (same : Nat.toDigits 16 number = Nat.toDigits 16 other) : number = other := by
  induction number using Nat.strongRecOn generalizing other with
  | ind number ih =>
      have occupied : ∀ number, Nat.toDigits 16 number ≠ [] := fun _ => Nat.toDigits_ne_nil
      rw [Nat.toDigits_eq_if (n := number) (by decide),
        Nat.toDigits_eq_if (n := other) (by decide)] at same
      split at same <;> split at same
      · exact digitChar_inj ‹_› ‹_› (List.singleton_inj.mp same)
      · simp [List.singleton_eq_append_iff, occupied] at same
      · simp [List.append_eq_singleton_iff, occupied] at same
      · obtain ⟨front, last⟩ := List.append_inj' same rfl
        have quotient := ih (number / 16) (by omega) front
        have remainder := digitChar_inj (Nat.mod_lt _ (by decide)) (Nat.mod_lt _ (by decide))
          (List.singleton_inj.mp last)
        omega

theorem notMem_toDigits {mark : Char} (noDigit : ∀ digit : Nat, digit.digitChar ≠ mark)
    (number : Nat) : mark ∉ Nat.toDigits 16 number := by
  induction number using Nat.strongRecOn with
  | ind number ih =>
      rw [Nat.toDigits_eq_if (by decide)]
      split
      · simpa using (noDigit _).symm
      · have front := ih (number / 16) (by omega)
        simpa [front] using (noDigit _).symm

/-! ## JSON strings and string literals -/

namespace JsonValue

/-- The escapes of JSON strings. The codes of control characters have four digits. -/
def escaping : Escaping where
  marks := [('"', '"'), ('\\', '\\'), ('\x08', 'b'), ('\t', 't'), ('\n', 'n'), ('\x0c', 'f'),
    ('\r', 'r')]
  code character digits := character.toNat < 0x20 ∧
    digits = ['0', '0', (character.toNat / 16).digitChar, (character.toNat % 16).digitChar]
  distinct := by decide
  announced := by decide
  delimited := by
    rintro character other _ _ rest others ⟨small, rfl⟩ ⟨otherSmall, rfl⟩ same
    obtain ⟨high, low, behind⟩ := by simpa using same
    have sameHigh := digitChar_inj (by omega) (by omega) high
    have sameLow := digitChar_inj (by omega) (by omega) low
    exact ⟨Char.toNat_inj.mp (by omega), behind⟩

theorem writes_stringCharacter (character : Char) :
    escaping.Writes character (stringCharacter character).toList := by
  unfold stringCharacter
  split
  case h_8 noQuote noBackslash _ _ _ _ _ =>
    have code (digits : List Char) (small : character.toNat < 0x20) (fits : digits = ['0', '0',
        (character.toNat / 16).digitChar, (character.toNat % 16).digitChar]) :
        escaping.Writes character ('\\' :: 'u' :: digits) := .code ⟨small, fits⟩
    split
    · rename_i small
      have written : ("\\u000" ++ hexadecimal character.toNat).toList =
          '\\' :: 'u' :: ['0', '0', '0', character.toNat.digitChar] := by
        simp [hexadecimal, Nat.toDigits_of_lt_base small]
      rw [written]
      apply code _ (by omega)
      rw [Nat.div_eq_of_lt small, Nat.mod_eq_of_lt small]
      rfl
    · split
      · rename_i large small
        have written : ("\\u00" ++ hexadecimal character.toNat).toList = '\\' :: 'u' :: ['0', '0',
            (character.toNat / 16).digitChar, (character.toNat % 16).digitChar] := by
          have high : character.toNat / 16 < 16 := by omega
          simp [hexadecimal, Nat.toDigits_of_base_le (by decide : 1 < 16) (Nat.not_lt.mp large),
            Nat.toDigits_of_lt_base high]
        rw [written]
        exact code _ small rfl
      · rw [Char.toString, String.toList_singleton]
        exact .plain noQuote noBackslash
  all_goals exact .mark (by decide)

/-- A JSON string tells its text. -/
theorem selfDelimiting_string : SelfDelimiting fun text => (string text).toList :=
  escaping.selfDelimiting_quoted writes_stringCharacter

end JsonValue

/-- The escapes of string literals. A code stands between braces. -/
def literalEscaping : Escaping where
  marks := [('"', '"'), ('\\', '\\'), ('\t', 't'), ('\r', 'r'), ('\n', 'n'), ('\x00', '0')]
  code character digits := digits = '\x7b' :: Nat.toDigits 16 character.toNat ++ ['\x7d']
  distinct := by decide
  announced := by decide
  delimited := by
    rintro character other _ _ rest others rfl rfl same
    simp only [List.cons_append, List.append_assoc, List.nil_append, List.cons.injEq,
      true_and] at same
    have noDigit (digit : Nat) : digit.digitChar ≠ '\x7d' := Nat.digitChar_ne _ rfl
    obtain ⟨digits, behind⟩ :=
      cut_unique (notMem_toDigits noDigit _) (notMem_toDigits noDigit _) same
    exact ⟨Char.toNat_inj.mp (toDigits_inj digits), behind⟩

theorem writes_literalCharacter (character : Char) :
    literalEscaping.Writes character (literalCharacter character).toList := by
  unfold literalCharacter
  split
  case h_7 noQuote noBackslash _ _ _ _ =>
    split
    · rw [Char.toString, String.toList_singleton]
      exact .plain noQuote noBackslash
    · have written : ("\\u\x7b" ++ hexadecimal character.toNat ++ "\x7d").toList =
          '\\' :: 'u' :: ('\x7b' :: Nat.toDigits 16 character.toNat ++ ['\x7d']) := by
        simp [hexadecimal]
      rw [written]
      exact .code rfl
  all_goals exact .mark (by decide)

/-- A string literal tells its text. -/
theorem selfDelimiting_literal : SelfDelimiting fun text => (literal text).toList :=
  literalEscaping.selfDelimiting_quoted writes_literalCharacter

theorem newline_notMem_literalCharacter (character : Char) :
    '\n' ∉ (literalCharacter character).toList := by
  by_cases isNewline : character = '\n'
  · subst character
    decide
  · have writes := writes_literalCharacter character
    generalize (literalCharacter character).toList = written at writes
    cases writes with
    | plain inside sound => simpa using Ne.symm isNewline
    | mark marked =>
        have free : ∀ pair ∈ literalEscaping.marks, pair.2 ≠ '\n' := by decide
        simpa using (free _ marked).symm
    | code coded =>
        have noDigit (digit : Nat) : digit.digitChar ≠ '\n' := Nat.digitChar_ne _ rfl
        obtain rfl := coded
        simpa using notMem_toDigits noDigit character.toNat

/-- A string literal stands on one line. -/
theorem newline_notMem_literal (text : String) : '\n' ∉ (literal text).toList := by
  simp [literal, String.toList_join, newline_notMem_literalCharacter]

end TableFeed
