import Mathlib.Data.List.ReduceOption
import TableFeed.Proofs.Scan.Course

/-!
# What a scanner hands out

A scanner can be asked for tokens as often as its owner likes. The main statement says that the
tokens it hands out are the same however they are asked for, that there are at most two more of them
than characters, that they begin with the word of a command or a fault and end with the end of the
command, and that nothing comes behind that. While it reads, a scanner never comes back to a
position at which it stood before.
-/

namespace TableFeed

/-- What is promised about the tokens of a text, whoever asks for them. -/
structure Delivers (text : String) : Prop where
  drained : ∀ count, (Scanner.pull count (.ofText text)).1.reduceOption ++
    (Scanner.pull count (.ofText text)).2.tokens = scan text
  silent : ∀ count, ∃ (given : List PlacedToken) (missing : Nat),
    (Scanner.pull count (.ofText text)).1 = given.map some ++ List.replicate missing none
  bounded : (scan text).length ≤ text.length + 2
  begins : ∃ first later, scan text = first :: later ∧
    (first.token.kind = .error ∨ ∃ next, (first.token.kind, next) ∈ commandWords)
  ends : ∃ taken errors ending, scan text = taken ++ errors ++ [ending] ∧
    (∀ placed ∈ taken, placed.token.kind ≠ .endOfInput ∧ placed.token.kind ≠ .error) ∧
    errors.length ≤ 1 ∧ (∀ error ∈ errors, error.token.kind = .error) ∧
    ending.token.kind = .endOfInput
  forward : ∀ first second place, first < second →
    (Scanner.pull second (.ofText text)).2.phase = .reading place →
    (Scanner.pull first (.ofText text)).2.cursor.position <
      (Scanner.pull second (.ofText text)).2.cursor.position

namespace Scanner

variable {scanner later : Scanner} {placed : PlacedToken}

theorem pull_of_none (stopped : scanner.next? = none) (count : Nat) :
    pull count scanner = (List.replicate count none, scanner) := by
  induction count with
  | zero => rfl
  | succ count ih => rw [pull, stopped, ih, List.replicate_succ]

theorem pull_of_some (step : scanner.next? = some (placed, later)) (count : Nat) :
    pull (count + 1) scanner = (some placed :: (pull count later).1, (pull count later).2) := by
  rw [pull, step]

/-- Tokens that were asked for one at a time are missing from what is left, and no others are. -/
theorem pull_drained (count : Nat) (scanner : Scanner) :
    (pull count scanner).1.reduceOption ++ (pull count scanner).2.tokens = scanner.tokens := by
  induction count generalizing scanner with
  | zero => rfl
  | succ count ih =>
      cases step : scanner.next? with
      | none =>
          rw [pull_of_none step, List.reduceOption_replicate_none]
          rfl
      | some found =>
          obtain ⟨placed, later⟩ := found
          rw [pull_of_some step, tokens_of_next? step, List.reduceOption_cons_of_some,
            List.cons_append, ih later]

/-- A scanner that has once handed out nothing never hands out anything again. -/
theorem pull_silent (count : Nat) (scanner : Scanner) :
    ∃ (given : List PlacedToken) (missing : Nat),
      (pull count scanner).1 = given.map some ++ List.replicate missing none := by
  induction count generalizing scanner with
  | zero => exact ⟨[], 0, rfl⟩
  | succ count ih =>
      cases step : scanner.next? with
      | none => exact ⟨[], count + 1, by rw [pull_of_none step]; rfl⟩
      | some found =>
          obtain ⟨placed, later⟩ := found
          obtain ⟨given, missing, pulled⟩ := ih later
          exact ⟨placed :: given, missing, by rw [pull_of_some step, pulled]; rfl⟩

/-- A step that leads to another place takes at least one character. -/
theorem position_lt_of_next? {next : Place} (step : scanner.next? = some (placed, later))
    (reads : later.phase = .reading next) :
    (∃ place, scanner.phase = .reading place) ∧
      scanner.cursor.position < later.cursor.position := by
  obtain ⟨cursor, phase⟩ := scanner
  cases phase with
  | finished => cases step
  | closing =>
      obtain ⟨-, rfl⟩ := Prod.mk.inj (Option.some.inj step)
      cases reads
  | reading place =>
      refine ⟨⟨place, rfl⟩, ?_⟩
      simp only [next?, readAt, Option.some.injEq] at step
      split at step
      · rename_i kind lexeme behind reading
        obtain ⟨-, rfl⟩ := Prod.mk.inj step
        obtain ⟨-, spelled, rest, split, -⟩ := (Goal.read_eq_token place.goal_sound).mp reading
        obtain ⟨first, others, same, -⟩ := spelled.begins
        have positive := byteLength_pos (same ▸ List.cons_ne_nil first others)
        have skipped := cursor.skipBlanks_position
        simp only [Cursor.advance_position split]
        omega
      · obtain ⟨-, rfl⟩ := Prod.mk.inj step
        cases reads
      · obtain ⟨-, rfl⟩ := Prod.mk.inj step
        cases reads

theorem pull_succ_last (count : Nat) (scanner : Scanner) :
    (pull (count + 1) scanner).2 =
      match (pull count scanner).2.next? with
      | none => (pull count scanner).2
      | some (_, later) => later := by
  induction count generalizing scanner with
  | zero =>
      cases step : scanner.next? with
      | none => simp only [pull_of_none step, step]
      | some found => simp only [pull, step]
  | succ count ih =>
      cases step : scanner.next? with
      | none => simp only [pull_of_none step, step]
      | some found => simp only [pull_of_some step, ih]

theorem position_lt_of_pull {next : Place} (count : Nat) (scanner : Scanner)
    (reads : (pull (count + 1) scanner).2.phase = .reading next) :
    (∃ place, (pull count scanner).2.phase = .reading place) ∧
      (pull count scanner).2.cursor.position <
        (pull (count + 1) scanner).2.cursor.position := by
  rw [pull_succ_last] at reads ⊢
  cases step : (pull count scanner).2.next? with
  | none =>
      rw [step] at reads
      simp only [next?, reads] at step
      cases step
  | some found =>
      rw [step] at reads
      exact position_lt_of_next? step reads

/-- While a scanner reads, it never comes back to a position. -/
theorem position_strictMono {first second : Nat} {place : Place} (before : first < second)
    (reads : (pull second scanner).2.phase = .reading place) :
    (pull first scanner).2.cursor.position < (pull second scanner).2.cursor.position := by
  induction second generalizing place with
  | zero => cases before
  | succ second ih =>
      obtain ⟨⟨current, readsBefore⟩, further⟩ := position_lt_of_pull second scanner reads
      rcases Nat.lt_succ_iff_lt_or_eq.mp before with earlier | same
      · exact Nat.lt_trans (ih earlier readsBefore) further
      · subst first
        exact further

end Scanner

theorem Course.length_le {place : Place} {position : Nat} {text : List Char}
    {tokens : List PlacedToken} (course : Course place position text tokens) :
    tokens.length ≤ text.length + 2 := by
  induction course with
  | token blank takes spelled ends course ih =>
      obtain ⟨first, others, rfl, -⟩ := spelled.begins
      simp only [List.length_cons, List.length_append]
      omega
  | fault blank stops found => simp
  | exhausted begun blank => simp

/-- Whoever asks for the tokens of a text, and however often, gets what is promised. -/
theorem scan_delivers (text : String) : Delivers text := by
  have course : Course .start 0 text.toList (scan text) :=
    Scanner.course_of_reading .start (.atStart text)
  obtain ⟨taken, last, closing, whole, leads, -, closes⟩ := course.leads
  constructor
  case drained => exact fun count => Scanner.pull_drained count _
  case silent => exact fun count => Scanner.pull_silent count _
  case bounded => exact course.length_le
  case begins =>
    cases taken with
    | nil =>
        -- The scan has not left the start of the command, where its end is a fault.
        obtain rfl : Place.start = last := leads
        rw [List.nil_append] at whole
        cases closes with
        | fault stop => exact ⟨_, _, whole, Or.inl rfl⟩
        | exhausted begun stop => exact (begun rfl).elim
    | cons first taken =>
        obtain ⟨next, takes, -⟩ := leads
        exact ⟨first, taken ++ closing, whole, Or.inr ⟨next, takes⟩⟩
  case ends =>
    have inside : ∀ placed ∈ taken,
        placed.token.kind ≠ .endOfInput ∧ placed.token.kind ≠ .error := by
      intro placed member
      exact leads.isToken placed.token.kind (List.mem_map_of_mem member)
    cases closes with
    | @fault fault lexeme stop =>
        refine ⟨taken, [Scanner.errorToken fault lexeme], ⟨.ending, some stop⟩, ?_, inside,
          Nat.le_refl 1, List.forall_mem_singleton.mpr rfl, rfl⟩
        rw [whole, List.append_assoc]
        rfl
    | exhausted begun stop =>
        refine ⟨taken, [], ⟨.ending, some stop⟩, ?_, inside, Nat.zero_le 1, nofun, rfl⟩
        rw [whole, List.append_nil]
  case forward => exact fun first second place => Scanner.position_strictMono

end TableFeed
