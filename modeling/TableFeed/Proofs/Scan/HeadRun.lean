import TableFeed.Proofs.Scan.Looks

/-!
# A head is never stopped

A scan with a head takes one turn after another. Before each turn nothing is pending, and what has
still to be handed out is what a scanner finds that reads on at the place of the turn. Every turn
keeps this up, so no turn is ever stopped, whatever the text is made of. The main statement says
that all steps of a scan are safe, and that the tokens it hands out are the tokens of the text.
-/

namespace TableFeed

variable {text : String}

namespace HeadScan

/-- A scan with a head goes on in such a way that all the given tokens will have been handed out
when it is finished. The number bounds the turns that are left until then. -/
inductive OnCourse (all : List PlacedToken) : HeadScan text → Nat → Prop
  | reading {tape : Tape text} {tokens : List PlacedToken} {before rest : List Char}
      {place : Place} {due : Nat} (stands : tape.Stands tokens before [] rest)
      (whole : all =
        tokens ++ (Scanner.mk ⟨byteLength before, rest⟩ (.reading place)).tokens)
      (enough : (Scanner.mk ⟨byteLength before, rest⟩ (.reading place)).tokens.length < due) :
      OnCourse all ⟨tape, some place, false⟩ due
  | ending {tape : Tape text} {tokens : List PlacedToken} {before rest : List Char} {due : Nat}
      (stands : tape.Stands tokens before [] rest)
      (whole : all = tokens ++ [⟨.ending, some (byteLength before)⟩]) (enough : 0 < due) :
      OnCourse all ⟨tape, none, false⟩ due
  | done {tape : Tape text} {before rest : List Char} {due : Nat}
      (stands : tape.Stands all before [] rest) : OnCourse all ⟨tape, none, true⟩ due

/-- What is promised of a scan with a head after a number of turns. All steps on record are safe and
have led to the head, and no token has been handed out that the text does not have. After as many
turns as there are characters, and three more, all tokens have been handed out. -/
structure Safe (count : Nat) (later : HeadScan text) : Prop where
  steps : SafeSteps text later.tape.steps
  latest : later.tape.head = headBehind later.tape.steps
  handed : later.tape.tokens <+: scan text
  drained : text.length + 3 ≤ count → later.finished = true ∧ later.tape.tokens = scan text

end HeadScan

/-! ## One turn -/

section Turn

variable {tape : Tape text} {tokens all : List PlacedToken} {before rest : List Char}
variable {place : Place} {reading : Reading} {answer : Option Place} {due : Nat}

theorem Settles.turned (settles : Settles tokens before reading answer tape) :
    Settles tokens before reading answer (tape.moved .turn tape.head) := by
  cases settles with
  | token stands => exact .token (stands.stays nofun)
  | fault stands => exact .fault (stands.stays nofun)
  | exhausted stands => exact .exhausted (stands.stays nofun)

theorem does_visit (place : Place) (stands : tape.Stands tokens before [] rest) :
    Does (HeadScan.visit place) tape (Settles tokens (before ++ rest.takeWhile isBlank)
      (place.goal.read (rest.dropWhile isBlank))) := by
  apply (does_look place.goal_sound stands).bind
  intro next looked settles
  exact does_modify_bind (does_pure settles.turned)

theorem does_conclude (stands : tape.Stands tokens before [] rest) :
    Does HeadScan.conclude tape fun _ later =>
      later.Stands (tokens ++ [⟨.ending, some (byteLength before)⟩]) before [] rest := by
  apply (does_leave stands).bind
  intro _ left begun
  rw [List.append_nil] at begun
  have emitted := does_emit .endOfInput begun
  rwa [List.append_nil] at emitted

/-- A cursor that is moved over the blanks and a lexeme stands where the head stands. -/
theorem advance_of_stands {earlier later : Tape text} {handed : List PlacedToken}
    {lexeme behind : List Char} (stands : earlier.Stands tokens before [] rest)
    (reached : later.Stands handed (before ++ rest.takeWhile isBlank ++ lexeme) [] behind) :
    (Cursor.mk (byteLength before) rest).skipBlanks.advance lexeme.length =
      ⟨byteLength (before ++ rest.takeWhile isBlank ++ lexeme), behind⟩ := by
  have dropped : rest.dropWhile isBlank = lexeme ++ behind := by
    have same : before ++ rest = before ++ rest.takeWhile isBlank ++ lexeme ++ behind :=
      stands.split.symm.trans reached.split
    rw [List.append_assoc, List.append_assoc] at same
    have split := List.append_cancel_left same
    nth_rewrite 1 [← List.takeWhile_append_dropWhile (p := isBlank) (l := rest)] at split
    exact List.append_cancel_left split
  have position := (Cursor.mk (byteLength before) rest).skipBlanks_position
  have left := (Cursor.mk (byteLength before) rest).skipBlanks_rest.trans dropped
  generalize (Cursor.mk (byteLength before) rest).skipBlanks = skipped at position left ⊢
  obtain ⟨start, others⟩ := skipped
  obtain rfl : others = lexeme ++ behind := left
  obtain rfl : start = byteLength before + byteLength (rest.takeWhile isBlank) := position
  rw [Cursor.advance_eq, byteLength_append, byteLength_append]

/-- A settled reading leaves the scan on its course. -/
theorem Settles.onCourse (stands : tape.Stands tokens before [] rest)
    (whole : all = tokens ++ (Scanner.mk ⟨byteLength before, rest⟩ (.reading place)).tokens)
    (enough : (Scanner.mk ⟨byteLength before, rest⟩ (.reading place)).tokens.length ≤ due)
    {later : Tape text}
    (settles : Settles tokens (before ++ rest.takeWhile isBlank)
      (place.goal.read (rest.dropWhile isBlank)) answer later) :
    HeadScan.OnCourse all ⟨later, answer, false⟩ due := by
  have skipped : (Cursor.mk (byteLength before) rest).skipBlanks.position =
      byteLength (before ++ rest.takeWhile isBlank) := by
    rw [Cursor.skipBlanks_position, byteLength_append]
  rw [Scanner.tokens_reading] at whole enough
  generalize place.goal.read (rest.dropWhile isBlank) = reading at whole enough settles
  cases settles with
  | token reached =>
      have advanced := advance_of_stands stands reached
      simp only [advanced, Scanner.tokenAt, skipped, List.length_cons] at whole enough
      exact .reading reached (by rw [whole, List.append_cons]) enough
  | fault reached =>
      have advanced := advance_of_stands stands reached
      simp only [advanced, Scanner.endingAt, List.length_cons, List.length_nil] at whole enough
      exact .ending reached (by rw [whole, List.append_cons]) (by omega)
  | exhausted reached =>
      simp only [Scanner.endingAt, skipped, List.length_cons, List.length_nil] at whole enough
      exact .ending reached whole enough

end Turn

/-! ## A run -/

namespace HeadScan

variable {all : List PlacedToken} {due : Nat} {scan : HeadScan text}

/-- A turn keeps a scan on its course, and one turn less is left. -/
theorem OnCourse.turn (course : OnCourse all scan due) (begun : scan.finished = false) :
    ∃ later, scan.turn = .ok later ∧ OnCourse all later (due - 1) := by
  cases course with
  | reading stands whole enough =>
      obtain ⟨answer, later, done, settles⟩ := does_visit _ stands
      have goesOn := settles.onCourse stands whole (Nat.le_sub_one_of_lt enough)
      refine ⟨⟨later, answer, false⟩, ?_, goesOn⟩
      simp only [HeadScan.turn, done]
      rfl
  | ending stands whole enough =>
      obtain ⟨_, later, done, reached⟩ := does_conclude stands
      refine ⟨⟨later, none, true⟩, ?_, .done (whole ▸ reached)⟩
      simp only [HeadScan.turn, done]
      rfl
  | done stands => nomatch begun

/-- A finished scan needs no more turns. -/
theorem OnCourse.rests {other : Nat} (course : OnCourse all scan due)
    (ended : scan.finished = true) : OnCourse all scan other := by
  cases course with
  | reading stands whole enough => nomatch ended
  | ending stands whole enough => nomatch ended
  | done stands => exact .done stands

/-- No turn of a run is stopped. -/
theorem OnCourse.turns (course : OnCourse all scan due) (count : Nat) :
    ∃ later, scan.turns count = .ok later ∧ OnCourse all later (due - count) := by
  induction count generalizing scan due with
  | zero => exact ⟨scan, rfl, course⟩
  | succ count ih =>
      rw [HeadScan.turns]
      cases ended : scan.finished with
      | true => exact ⟨scan, rfl, course.rests ended⟩
      | false =>
          obtain ⟨next, taken, goesOn⟩ := course.turn ended
          obtain ⟨later, done, reached⟩ := ih goesOn
          rw [Nat.sub_sub, Nat.add_comm] at reached
          rw [taken]
          exact ⟨later, done, reached⟩

theorem OnCourse.stands (course : OnCourse all scan due) :
    ∃ tokens before rest, scan.tape.Stands tokens before [] rest ∧ tokens <+: all := by
  cases course with
  | reading stands whole enough => exact ⟨_, _, _, stands, _, whole.symm⟩
  | ending stands whole enough => exact ⟨_, _, _, stands, _, whole.symm⟩
  | done stands => exact ⟨_, _, _, stands, List.prefix_rfl⟩

theorem OnCourse.drained (course : OnCourse all scan 0) :
    scan.finished = true ∧ scan.tape.tokens = all := by
  cases course with
  | reading stands whole enough => exact (Nat.not_lt_zero _ enough).elim
  | ending stands whole enough => exact (Nat.lt_irrefl 0 enough).elim
  | done stands => exact ⟨rfl, stands.handed⟩

end HeadScan

/-- Whatever a text is made of, a head is never stopped in it. All its steps are safe, and it hands
out the tokens of the text. -/
theorem HeadScan.turns_safe (text : String) (count : Nat) :
    ∃ later, (HeadScan.ofText text).turns count = .ok later ∧ later.Safe count := by
  have course : Course .start 0 text.toList (scan text) :=
    Scanner.course_of_reading .start (.atStart text)
  have begun : HeadScan.OnCourse (scan text) (HeadScan.ofText text) (text.length + 3) :=
    .reading (Tape.atStart_stands text) rfl (Nat.lt_succ_of_le course.length_le)
  obtain ⟨later, done, reached⟩ := begun.turns count
  obtain ⟨tokens, before, rest, stands, among⟩ := reached.stands
  refine ⟨later, done, stands.safe, stands.latest, stands.handed ▸ among, ?_⟩
  intro enough
  rw [Nat.sub_eq_zero_of_le enough] at reached
  exact reached.drained

end TableFeed
