import Mathlib.Data.List.Basic
import TableFeed.Session

/-!
# Lines that close a session

A line closes a session when it asks for that, or when its bytes are no text. The main statements
say that a session stops at these lines and no others, and that a carriage return at the end of a
line makes no difference to anything.
-/

namespace TableFeed

namespace Session

/-- The bytes of a text. -/
def bytesOf (text : String) : List UInt8 :=
  text.toUTF8.data.toList

/-- A text asks for the end of the session. -/
def AsksToStop (text : String) : Prop :=
  String.ofList (trimmed text.toList) = ".exit" ∨ String.ofList (trimmed text.toList) = ".quit"

instance (text : String) : Decidable (AsksToStop text) :=
  inferInstanceAs (Decidable (_ ∨ _))

/-- A line closes the session, with an exit code: when it asks for that, or when it is no text. -/
inductive Closes : List UInt8 → Nat → Prop
  | asked {text : String} (asks : AsksToStop text) : Closes (bytesOf text) 0
  | broken {line : List UInt8} (noText : ∀ text, bytesOf text ≠ line) : Closes line 1

/-- A line leaves the session open: it is a text that does not ask for the end. Whether the command
in the text is accepted makes no difference. -/
def StaysOpen (line : List UInt8) : Prop :=
  ∃ text, bytesOf text = line ∧ ¬ AsksToStop text

/-- The byte of a carriage return. -/
def carriageReturn : UInt8 := 13

/-- A line without the carriage return that may stand in front of its break. -/
def withoutReturn (line : List UInt8) : List UInt8 :=
  if line.getLast? = some carriageReturn then line.dropLast else line

variable {style : Style} {line : List UInt8} {text : String} {code : Nat}

theorem fromUTF8?_eq_some : String.fromUTF8? ⟨line.toArray⟩ = some text ↔ bytesOf text = line := by
  constructor
  · intro found
    unfold String.fromUTF8? at found
    split at found
    · obtain rfl := Option.some.inj found
      rfl
    · nomatch found
  · rintro rfl
    have valid : ByteArray.IsValidUTF8 ⟨(bytesOf text).toArray⟩ := text.isValidUTF8
    rw [String.fromUTF8?, dif_pos valid]
    rfl

theorem fromUTF8?_eq_none :
    String.fromUTF8? ⟨line.toArray⟩ = none ↔ ∀ text, bytesOf text ≠ line := by
  rw [Option.eq_none_iff_forall_ne_some]
  simp only [ne_eq, fromUTF8?_eq_some]

theorem turn_bytesOf (style : Style) (text : String) :
    turn style (bytesOf text) = turnOfText style text := by
  rw [turn, fromUTF8?_eq_some.mpr rfl]

theorem turn_of_noText (style : Style) (noText : ∀ text, bytesOf text ≠ line) :
    turn style line = .stop 1 := by
  rw [turn, fromUTF8?_eq_none.mpr noText]

theorem turnOfText_eq_stop : turnOfText style text = .stop code ↔ AsksToStop text ∧ code = 0 := by
  simp only [turnOfText]
  split
  · rename_i asks
    constructor
    · intro stopped
      exact ⟨asks, (Turn.stop.inj stopped).symm⟩
    · rintro ⟨-, rfl⟩
      rfl
  · rename_i other
    constructor
    · intro stopped
      split at stopped <;> nomatch stopped
    · rintro ⟨asks, -⟩
      exact (other asks).elim

/-- A session stops exactly at the lines that close it. -/
theorem turn_eq_stop : turn style line = .stop code ↔ Closes line code := by
  constructor
  · intro stopped
    by_cases isText : ∃ text, bytesOf text = line
    · obtain ⟨text, rfl⟩ := isText
      rw [turn_bytesOf, turnOfText_eq_stop] at stopped
      obtain ⟨asks, rfl⟩ := stopped
      exact .asked asks
    · have noText := not_exists.mp isText
      rw [turn_of_noText style noText] at stopped
      obtain rfl : 1 = code := Turn.stop.inj stopped
      exact .broken noText
  · intro closes
    cases closes with
    | asked asks => rw [turn_bytesOf, turnOfText_eq_stop.mpr ⟨asks, rfl⟩]
    | broken noText => exact turn_of_noText style noText

theorem not_staysOpen_iff : ¬ StaysOpen line ↔ ∃ code, Closes line code := by
  constructor
  · intro closed
    by_cases isText : ∃ text, bytesOf text = line
    · obtain ⟨text, rfl⟩ := isText
      have asks : AsksToStop text := by
        by_contra other
        exact closed ⟨text, rfl, other⟩
      exact ⟨0, .asked asks⟩
    · exact ⟨1, .broken (not_exists.mp isText)⟩
  · rintro ⟨code, closes⟩ ⟨text, rfl, other⟩
    have stopped : turn ⟨false, false⟩ (bytesOf text) = .stop code := turn_eq_stop.mpr closes
    rw [turn_bytesOf, turnOfText_eq_stop] at stopped
    exact other stopped.1

theorem StaysOpen.exists_answer (stays : StaysOpen line) (style : Style) :
    ∃ answer, turn style line = .goOn answer := by
  cases result : turn style line with
  | goOn answer => exact ⟨answer, rfl⟩
  | stop code => exact (not_staysOpen_iff.mpr ⟨code, turn_eq_stop.mp result⟩ stays).elim

section CarriageReturn

theorem bytesOf_eq (text : String) : bytesOf text = text.toList.flatMap String.utf8EncodeChar := by
  rw [bytesOf, String.toUTF8_eq_toByteArray, ← String.utf8Encode_toList, List.utf8Encode,
    List.data_toByteArray]

theorem bytesOf_push_return (text : String) :
    bytesOf (text.push '\r') = bytesOf text ++ [carriageReturn] := by
  rw [bytesOf_eq, String.toList_push, List.flatMap_append, ← bytesOf_eq]
  rfl

theorem eq_of_ofNat_eq_return {number : Nat} (small : number < 256)
    (same : UInt8.ofNat number = carriageReturn) : number = 13 := by
  have values := congrArg UInt8.toNat same
  rw [UInt8.toNat_ofNat', Nat.mod_eq_of_lt small] at values
  exact values

/-- No character but the carriage return is encoded with this byte at its end: the last byte of a
longer encoding is at least 128. -/
theorem eq_return_of_getLast? {character : Char}
    (last : (String.utf8EncodeChar character).getLast? = some carriageReturn) :
    character = '\r' := by
  have continued : ∀ number, UInt8.ofNat (number % 64 + 128) ≠ carriageReturn := by
    intro number same
    have value := eq_of_ofNat_eq_return (by omega) same
    omega
  unfold String.utf8EncodeChar at last
  dsimp only at last
  split at last
  · have value : character.val.toNat = 13 := eq_of_ofNat_eq_return (by omega) (Option.some.inj last)
    exact Char.ext (UInt32.toNat_inj.mp value)
  · split at last
    · exact (continued _ (Option.some.inj last)).elim
    · split at last <;> exact (continued _ (Option.some.inj last)).elim

theorem exists_shorter (bytes : bytesOf text = line ++ [carriageReturn]) :
    ∃ shorter : String, text = shorter.push '\r' ∧ bytesOf shorter = line := by
  rw [bytesOf_eq] at bytes
  rcases List.eq_nil_or_concat text.toList with nothing | ⟨characters, last, split⟩
  · rw [nothing] at bytes
    exact (List.append_ne_nil_of_right_ne_nil line (List.cons_ne_nil _ _) bytes.symm).elim
  · rw [split, List.concat_eq_append, List.flatMap_append, List.flatMap_singleton] at bytes
    have ends : (String.utf8EncodeChar last).getLast? = some carriageReturn := by
      have lastByte := congrArg List.getLast? bytes
      simpa [List.getLast?_append, String.utf8EncodeChar_ne_nil] using lastByte
    obtain rfl := eq_return_of_getLast? ends
    refine ⟨String.ofList characters, ?_, ?_⟩
    · rw [String.ext_iff, split, String.toList_push, String.toList_ofList, List.concat_eq_append]
    · rw [bytesOf_eq, String.toList_ofList]
      exact List.append_inj_left' bytes rfl

theorem trimmed_append_return (characters : List Char) :
    trimmed (characters ++ ['\r']) = trimmed characters := by
  have blank : isBlank '\r' = true := by decide
  simp only [trimmed, List.dropWhile_append]
  split
  · rename_i allBlank
    rw [List.isEmpty_iff.mp allBlank]
    decide
  · simp [blank]

theorem turnOfText_push_return (style : Style) (text : String) :
    turnOfText style (text.push '\r') = turnOfText style text := by
  rw [turnOfText, turnOfText, String.toList_push, trimmed_append_return]

theorem turn_append_return (style : Style) (line : List UInt8) :
    turn style (line ++ [carriageReturn]) = turn style line := by
  by_cases isText : ∃ text, bytesOf text = line
  · obtain ⟨text, rfl⟩ := isText
    rw [← bytesOf_push_return, turn_bytesOf, turn_bytesOf, turnOfText_push_return]
  · have noText : ∀ text, bytesOf text ≠ line ++ [carriageReturn] := by
      intro text bytes
      obtain ⟨shorter, -, same⟩ := exists_shorter bytes
      exact isText ⟨shorter, same⟩
    rw [turn_of_noText style noText, turn_of_noText style (not_exists.mp isText)]

/-- A carriage return in front of a line break makes no difference. -/
theorem turn_withoutReturn (style : Style) (line : List UInt8) :
    turn style (withoutReturn line) = turn style line := by
  unfold withoutReturn
  split
  · rename_i ends
    have split : line.dropLast ++ [carriageReturn] = line := List.dropLast_append_getLast? _ ends
    rw [← turn_append_return, split]
  · rfl

end CarriageReturn

end Session

end TableFeed
