import TableFeed.Proofs.Session.Lines

/-!
# Sessions over longer input

A session remembers nothing from one line to the next, apart from whether it is still open. The main
statement compares the session over some whole lines with the sessions over longer input. Lines that
leave the session open only print their answers in front of all else. Behind a line that closes the
session no input counts, whatever its bytes are. And the exit code is decided by the first line that
closes the session, so that no command changes it.
-/

namespace TableFeed

namespace Session

/-- The lines of some bytes, without the carriage returns that may stand in front of the breaks. -/
def textLines (input : List UInt8) : List (List UInt8) :=
  (lines input).map withoutReturn

/-- The first of the lines that closes the session does so with this exit code. -/
inductive ClosedBy : List (List UInt8) → Nat → Prop
  | here {line : List UInt8} {later : List (List UInt8)} {code : Nat} (closes : Closes line code) :
      ClosedBy (line :: later) code
  | later {line : List UInt8} {later : List (List UInt8)} {code : Nat} (stays : StaysOpen line)
      (closed : ClosedBy later code) : ClosedBy (line :: later) code

/-- How the session over some bytes is part of the sessions over longer input: as long as it stays
open it only puts its answers in front, once it is closed it is all there is, and lines that leave a
session open have no part in the exit code. -/
structure Composes (style : Style) (first : List UInt8) : Prop where
  stays : (∀ line ∈ textLines first, StaysOpen line) →
    ∃ answers, run style first = ⟨answers ++ prompt, 0⟩ ∧
      ∀ second, ∃ others, (run style second).output = banner ++ others ∧
        run style (first ++ second) = ⟨answers ++ others, (run style second).exitCode⟩
  closes : (∃ line ∈ textLines first, ¬ StaysOpen line) →
    (∀ second, run style (first ++ second) = run style first) ∧
      ∀ code, (run style first).exitCode = code ↔ ClosedBy (textLines first) code
  ignores : ∀ line, lineBreak ∉ line → StaysOpen line → ∀ second,
    (run style (first ++ line ++ lineBreak :: second)).exitCode =
      (run style (first ++ second)).exitCode

section Lines

variable {first second line : List UInt8} {byte : UInt8}

theorem lines_cons_break (later : List UInt8) : lines (lineBreak :: later) = [] :: lines later := by
  rw [lines, if_pos rfl]

theorem lines_cons {later found : List UInt8} {others : List (List UInt8)}
    (inside : byte ≠ lineBreak) (split : lines later = found :: others) :
    lines (byte :: later) = (byte :: found) :: others := by
  rw [lines, if_neg inside, split]

theorem exists_lines (nonempty : first ≠ []) : ∃ found others, lines first = found :: others := by
  cases first with
  | nil => exact (nonempty rfl).elim
  | cons byte later =>
      rw [lines]
      split
      · exact ⟨[], lines later, rfl⟩
      · cases lines later with
        | nil => exact ⟨[byte], [], rfl⟩
        | cons found others => exact ⟨byte :: found, others, rfl⟩

/-- A line break ends the lines in front of it, whatever stands behind it. -/
theorem lines_break (start second : List UInt8) :
    lines (start ++ lineBreak :: second) = lines (start ++ [lineBreak]) ++ lines second := by
  induction start with
  | nil =>
      rw [List.nil_append, lines_cons_break, List.nil_append, lines_cons_break]
      rfl
  | cons byte later ih =>
      rw [List.cons_append, List.cons_append]
      by_cases isBreak : byte = lineBreak
      · rw [isBreak, lines_cons_break, lines_cons_break, ih, List.cons_append]
      · obtain ⟨found, others, split⟩ := exists_lines (List.concat_ne_nil lineBreak later)
        rw [split, List.cons_append] at ih
        rw [lines_cons isBreak ih, lines_cons isBreak split, List.cons_append]

theorem lines_append (whole : first = [] ∨ first.getLast? = some lineBreak)
    (second : List UInt8) : lines (first ++ second) = lines first ++ lines second := by
  rcases whole with rfl | ended
  · rfl
  · have split : first.dropLast ++ [lineBreak] = first := List.dropLast_append_getLast? _ ended
    rw [← split, List.append_assoc]
    exact lines_break first.dropLast second

theorem lines_line (inside : lineBreak ∉ line) (second : List UInt8) :
    lines (line ++ lineBreak :: second) = line :: lines second := by
  induction line with
  | nil => exact lines_cons_break second
  | cons byte later ih =>
      rw [List.mem_cons, not_or] at inside
      exact lines_cons (Ne.symm inside.1) (ih inside.2)

end Lines

section Turns

variable {style : Style} {first second : List (List UInt8)} {line : List UInt8} {code : Nat}

theorem turns_cons_of_goOn {answer : String} (goesOn : turn style line = .goOn answer)
    (later : List (List UInt8)) :
    turns style (line :: later) =
      ⟨prompt ++ answer ++ (turns style later).output, (turns style later).exitCode⟩ := by
  rw [turns, goesOn]

theorem turns_cons_of_closes (closes : Closes line code) (later : List (List UInt8)) :
    turns style (line :: later) = ⟨prompt, code⟩ := by
  rw [turns, turn_eq_stop.mpr closes]

theorem turns_map_withoutReturn (style : Style) (first second : List (List UInt8)) :
    turns style (first.map withoutReturn ++ second) = turns style (first ++ second) := by
  induction first with
  | nil => rfl
  | cons line later ih =>
      rw [List.map_cons, List.cons_append, turns, turn_withoutReturn, ih, List.cons_append, turns]

/-- Lines that leave the session open print their answers, and then the session goes on as if it
had begun there. -/
theorem exists_answers (stays : ∀ line ∈ first, StaysOpen line) (style : Style) :
    ∃ answers, ∀ second, turns style (first ++ second) =
      ⟨answers ++ (turns style second).output, (turns style second).exitCode⟩ := by
  induction first with
  | nil => exact ⟨"", fun second => by simp⟩
  | cons line later ih =>
      obtain ⟨here, laterStay⟩ := List.forall_mem_cons.mp stays
      obtain ⟨answer, goesOn⟩ := here.exists_answer style
      obtain ⟨answers, laterAnswer⟩ := ih laterStay
      refine ⟨prompt ++ answer ++ answers, ?_⟩
      intro second
      rw [List.cons_append, turns_cons_of_goOn goesOn, laterAnswer]
      simp only [String.append_assoc]

/-- Behind a line that closes the session nothing is read. -/
theorem ClosedBy.turns_append (closed : ClosedBy first code) (style : Style)
    (second : List (List UInt8)) : turns style (first ++ second) = turns style first := by
  induction closed with
  | here closes => rw [List.cons_append, turns_cons_of_closes closes, turns_cons_of_closes closes]
  | later stays _ ih =>
      obtain ⟨answer, goesOn⟩ := stays.exists_answer style
      rw [List.cons_append, turns_cons_of_goOn goesOn, turns_cons_of_goOn goesOn, ih]

theorem ClosedBy.exitCode_eq (closed : ClosedBy first code) (style : Style) :
    (turns style first).exitCode = code := by
  induction closed with
  | here closes => rw [turns_cons_of_closes closes]
  | later stays _ ih =>
      obtain ⟨answer, goesOn⟩ := stays.exists_answer style
      rw [turns_cons_of_goOn goesOn, ih]

theorem exists_closedBy (closes : ∃ line ∈ first, ¬ StaysOpen line) :
    ∃ code, ClosedBy first code := by
  induction first with
  | nil =>
      obtain ⟨line, member, -⟩ := closes
      nomatch member
  | cons line later ih =>
      by_cases stays : StaysOpen line
      · obtain ⟨found, member, foundCloses⟩ := closes
        rcases List.mem_cons.mp member with rfl | behind
        · exact (foundCloses stays).elim
        · obtain ⟨code, closed⟩ := ih ⟨found, behind, foundCloses⟩
          exact ⟨code, .later stays closed⟩
      · obtain ⟨code, here⟩ := not_staysOpen_iff.mp stays
        exact ⟨code, .here here⟩

/-- A line that leaves the session open has no part in the exit code. -/
theorem exitCode_insert (stays : StaysOpen line) (style : Style)
    (first second : List (List UInt8)) :
    (turns style (first ++ line :: second)).exitCode =
      (turns style (first ++ second)).exitCode := by
  induction first with
  | nil =>
      obtain ⟨answer, goesOn⟩ := stays.exists_answer style
      rw [List.nil_append, List.nil_append, turns_cons_of_goOn goesOn]
  | cons other later ih =>
      rw [List.cons_append, List.cons_append]
      by_cases otherStays : StaysOpen other
      · obtain ⟨answer, goesOn⟩ := otherStays.exists_answer style
        rw [turns_cons_of_goOn goesOn, turns_cons_of_goOn goesOn, ih]
      · obtain ⟨code, closes⟩ := not_staysOpen_iff.mp otherStays
        rw [turns_cons_of_closes closes, turns_cons_of_closes closes]

end Turns

section Whole

variable {first : List UInt8}

theorem turns_lines_append (whole : first = [] ∨ first.getLast? = some lineBreak) (style : Style)
    (second : List UInt8) :
    turns style (lines (first ++ second)) = turns style (textLines first ++ lines second) := by
  rw [lines_append whole, textLines, turns_map_withoutReturn]

theorem turns_lines (style : Style) (input : List UInt8) :
    turns style (lines input) = turns style (textLines input) := by
  have same := turns_map_withoutReturn style (lines input) []
  rw [List.append_nil, List.append_nil] at same
  exact same.symm

theorem lines_insert (whole : first = [] ∨ first.getLast? = some lineBreak) {line : List UInt8}
    (inside : lineBreak ∉ line) (second : List UInt8) :
    lines (first ++ line ++ lineBreak :: second) = lines first ++ line :: lines second := by
  rw [List.append_assoc, lines_append whole, lines_line inside]

/-- The session over some whole lines is part of every session over longer input: up to its last
prompt if it stays open, and as a whole if it is closed. -/
theorem composes_of_whole (style : Style)
    (whole : first = [] ∨ first.getLast? = some lineBreak) : Composes style first := by
  constructor
  case stays =>
    intro stays
    obtain ⟨answers, answered⟩ := exists_answers stays style
    have alone := answered []
    rw [List.append_nil] at alone
    refine ⟨banner ++ answers, ?_, ?_⟩
    · rw [run, turns_lines, alone]
      simp only [turns, String.append_assoc]
    · intro second
      refine ⟨(turns style (lines second)).output, rfl, ?_⟩
      rw [run, turns_lines_append whole, answered]
      simp only [run, String.append_assoc]
  case closes =>
    intro closes
    obtain ⟨code, closed⟩ := exists_closedBy closes
    have exits : (run style first).exitCode = code := by
      rw [run, turns_lines]
      exact closed.exitCode_eq style
    constructor
    · intro second
      rw [run, run, turns_lines_append whole, turns_lines, closed.turns_append]
    · intro other
      rw [exits]
      constructor
      · rintro rfl
        exact closed
      · intro otherClosed
        exact (closed.exitCode_eq style).symm.trans (otherClosed.exitCode_eq style)
  case ignores =>
    intro line inside stays second
    change (turns style _).exitCode = (turns style _).exitCode
    rw [lines_insert whole inside, lines_append whole]
    exact exitCode_insert stays style (lines first) (lines second)

/-- A blank line leaves the session open, and a line that is no text closes it. -/
theorem composes_blankThenBroken :
    Composes ⟨false, false⟩ [lineBreak] ∧ (∀ line ∈ textLines [lineBreak], StaysOpen line) ∧
      Composes ⟨false, false⟩ [lineBreak, 255, lineBreak] ∧
      (run ⟨false, false⟩ [lineBreak, 255, lineBreak]).exitCode = 1 ∧
      ∀ second, run ⟨false, false⟩ ([lineBreak, 255, lineBreak] ++ second) =
        run ⟨false, false⟩ [lineBreak, 255, lineBreak] := by
  have blank : StaysOpen [] := ⟨"", by decide, by decide⟩
  have broken : ∀ text, bytesOf text ≠ [255] := fromUTF8?_eq_none.mp (by decide)
  have composes : Composes ⟨false, false⟩ [lineBreak, 255, lineBreak] :=
    composes_of_whole ⟨false, false⟩ (Or.inr rfl)
  have closed : ∃ line ∈ textLines [lineBreak, 255, lineBreak], ¬ StaysOpen line :=
    ⟨[255], by decide, not_staysOpen_iff.mpr ⟨1, .broken broken⟩⟩
  obtain ⟨same, exits⟩ := composes.closes closed
  refine ⟨composes_of_whole ⟨false, false⟩ (Or.inr rfl), ?_, composes, ?_, same⟩
  · intro line member
    obtain rfl : line = [] := by simpa [textLines, lines, withoutReturn] using member
    exact blank
  · exact (exits 1).mpr (.later blank (.here (.broken broken)))

end Whole

end Session

end TableFeed
