import TableFeed.Proofs.Scan.Course
import TableFeed.Scan.HeadScan

/-!
# The moves of a head

A head stands in a text: some characters lie in front of the pending piece, the piece is made of the
next ones, and the rest is still to be read. Every move leads from such a state to another one, and
the step that is put on record for it is safe. The main statements say this for each move and for
the runs of characters that a head goes over, and with it that none of them is ever stopped.
-/

namespace TableFeed

variable {text : String}

/-! ## Safe steps -/

/-- The head behind some steps, the latest of which comes first. -/
def headBehind : List Step → Head
  | [] => .atStart
  | step :: _ => step.after

/-- A step begins where the older ones have led. The start of the pending piece and the position of
the head fall between two characters of the text, in this order, and nothing is pending behind a
token or a fault. A step back undoes the step before it, which has gone on to the next character. -/
structure Step.Safe (text : String) (older : List Step) (step : Step) : Prop where
  linked : step.before = headBehind older
  ordered : step.after.start ≤ step.after.position
  inside : step.after.position ≤ text.utf8ByteSize
  start : String.Pos.Raw.IsValid text ⟨step.after.start⟩
  position : String.Pos.Raw.IsValid text ⟨step.after.position⟩
  emptied : step.move = .emit ∨ step.move = .report → step.after.start = step.after.position
  undone : step.move = .back → ∃ last others, older = last :: others ∧ last.move = .next ∧
    step.after.start = last.before.start ∧ step.after.position = last.before.position

/-- Each of some steps is safe behind the older ones. -/
def SafeSteps (text : String) : List Step → Prop
  | [] => True
  | step :: older => step.Safe text older ∧ SafeSteps text older

/-! ## Pieces of a text -/

section Pieces

variable {before pending rest : List Char}

theorem exists_byteLength_cons (character : Char) (others : List Char) :
    ∃ count, byteLength (character :: others) = count + 1 ∧ character.utf8Size ≤ count + 1 ∧
      count + 1 - character.utf8Size = byteLength others := by
  have width := Char.utf8Size_pos character
  refine ⟨character.utf8Size - 1 + byteLength others, ?_, ?_, ?_⟩
  · simp only [byteLength]
    omega
  · omega
  · omega

theorem behind?_append (before rest : List Char) :
    behind? (byteLength before) (before ++ rest) = some rest := by
  induction before with
  | nil => simp [byteLength, behind?]
  | cons character before ih =>
      obtain ⟨count, whole, fits, others⟩ := exists_byteLength_cons character before
      rw [List.cons_append, whole, behind?, if_pos fits, others, ih]

theorem front?_append (pending rest : List Char) :
    front? (byteLength pending) (pending ++ rest) = some pending := by
  induction pending with
  | nil => simp [byteLength, front?]
  | cons character pending ih =>
      obtain ⟨count, whole, fits, others⟩ := exists_byteLength_cons character pending
      rw [List.cons_append, whole, front?, if_pos fits, others, ih, Option.map_some]

theorem piece?_append (before pending rest : List Char) :
    piece? (byteLength before) (byteLength before + byteLength pending)
      (before ++ (pending ++ rest)) = some pending := by
  rw [piece?, if_pos (Nat.le_add_right _ _), behind?_append, Option.bind_some,
    Nat.add_sub_cancel_left, front?_append]

theorem isValid_of_split (split : text.toList = before ++ rest) :
    String.Pos.Raw.IsValid text ⟨byteLength before⟩ := by
  apply String.Pos.Raw.isValid_iff_exists_append.mpr
  refine ⟨String.ofList before, String.ofList rest, ?_, ?_⟩
  · rw [← String.ofList_append, ← split, String.ofList_toList]
  · rw [String.rawEndPos, byteLength_eq]

end Pieces

/-! ## Where a head stands -/

namespace Tape

variable {tape : Tape text} {tokens : List PlacedToken} {before pending rest : List Char}

/-- The head of a tape stands in the text: the given characters lie in front of the pending piece,
make up the piece, and are still to be read. The given tokens have been handed out, and all steps on
record were safe and have led to the head. -/
structure Stands (tape : Tape text) (tokens : List PlacedToken) (before pending rest : List Char) :
    Prop where
  split : text.toList = before ++ (pending ++ rest)
  start : tape.head.start = byteLength before
  position : tape.head.position = byteLength before + byteLength pending
  handed : tape.tokens = tokens
  latest : tape.head = headBehind tape.steps
  safe : SafeSteps text tape.steps

/-- With its last move the head of a tape has gone over the first of the given characters that were
still to be read, if there were any. -/
def WentOn (tape : Tape text) (tokens : List PlacedToken) (before pending rest : List Char) :
    Prop :=
  ∃ earlier : Tape text, earlier.Stands tokens before pending rest ∧
    ∃ character, Action.next earlier = .ok (character, tape)

theorem atStart_stands (text : String) : (atStart text).Stands [] [] [] text.toList where
  split := rfl
  start := rfl
  position := rfl
  handed := rfl
  latest := rfl
  safe := trivial

/-- A step is safe if it leads to a place in the text, keeps its promise about the pending piece,
and steps back over nothing but the last character. -/
theorem Stands.moved {front piece later : List Char} {move : Move} {head : Head}
    (stands : tape.Stands tokens before pending rest)
    (split : text.toList = front ++ (piece ++ later)) (start : head.start = byteLength front)
    (position : head.position = byteLength front + byteLength piece)
    (emptied : move = .emit ∨ move = .report → piece = [])
    (undone : move = .back → ∃ last others, tape.steps = last :: others ∧ last.move = .next ∧
      head.start = last.before.start ∧ head.position = last.before.position) :
    (tape.moved move head).Stands tokens front piece later := by
  have whole : text.toList = (front ++ piece) ++ later := by
    rw [split, List.append_assoc]
  have positionEq : head.position = byteLength (front ++ piece) := by
    rw [position, byteLength_append]
  have bounded : byteLength (front ++ piece) ≤ text.utf8ByteSize := by
    have size : text.utf8ByteSize = byteLength text.toList := by
      rw [byteLength_eq, String.ofList_toList]
    rw [size, whole]
    exact byteLength_le_of_isPrefix (List.prefix_append _ _)
  refine ⟨split, start, position, stands.handed, rfl, ?_, stands.safe⟩
  constructor
  case linked => exact stands.latest
  case ordered => exact start ▸ position ▸ Nat.le_add_right _ _
  case inside => exact positionEq ▸ bounded
  case start => exact start ▸ isValid_of_split split
  case position => exact positionEq ▸ isValid_of_split whole
  case emptied =>
    intro handing
    change head.start = head.position
    rw [start, position, emptied handing]
    rfl
  case undone => exact undone

/-- Nothing but a step back has to be shown to be safe where the head stays. -/
theorem Stands.stays {move : Move} (stands : tape.Stands tokens before [] rest)
    (other : move ≠ .back) : (tape.moved move tape.head).Stands tokens before [] rest :=
  stands.moved stands.split stands.start stands.position (fun _ => rfl)
    fun back => (other back).elim

theorem Stands.given {move : Move} {token : PlacedToken}
    (stands : tape.Stands tokens before [] rest) (other : move ≠ .back) :
    (tape.given move token).Stands (tokens ++ [token]) before [] rest :=
  { stands.stays other with handed := congrArg (· ++ [token]) stands.handed }

theorem Stands.atEnd_eq (stands : tape.Stands tokens before pending rest) :
    tape.atEnd = rest.isEmpty := by
  have whole : byteLength text.toList = tape.head.position + byteLength rest := by
    rw [stands.split, stands.position, byteLength_append, byteLength_append, Nat.add_assoc]
  cases rest with
  | nil => exact decide_eq_true whole.le
  | cons character rest =>
      have positive := byteLength_pos (List.cons_ne_nil character rest)
      exact decide_eq_false (by omega)

end Tape

/-! ## What a move does -/

/-- Something can be done with a tape, and leads to an answer and a tape with the given property. -/
def Does {α : Type} (action : Action text α) (tape : Tape text) (after : α → Tape text → Prop) :
    Prop :=
  ∃ answer later, action tape = .ok (answer, later) ∧ after answer later

section Does

variable {α β : Type} {action : Action text α} {further : α → Action text β} {tape : Tape text}
variable {middle after : α → Tape text → Prop} {behind : β → Tape text → Prop}

theorem does_pure {answer : α} (holds : after answer tape) :
    Does (pure answer : Action text α) tape after :=
  ⟨answer, tape, rfl, holds⟩

theorem does_modify {change : Tape text → Tape text} {after : PUnit → Tape text → Prop}
    (holds : after ⟨⟩ (change tape)) :
    Does (modify change : Action text PUnit) tape after :=
  ⟨⟨⟩, change tape, rfl, holds⟩

theorem does_get_bind {further : Tape text → Action text β}
    (does : Does (further tape) tape behind) : Does (get >>= further) tape behind :=
  does

theorem does_modify_bind {change : Tape text → Tape text} {further : PUnit → Action text β}
    (does : Does (further ⟨⟩) (change tape) behind) :
    Does (modify change >>= further) tape behind :=
  does

theorem Does.bind (does : Does action tape middle)
    (later : ∀ answer next, middle answer next → Does (further answer) next behind) :
    Does (action >>= further) tape behind := by
  obtain ⟨answer, next, done, holds⟩ := does
  obtain ⟨result, last, doneLater, holdsLater⟩ := later answer next holds
  exact ⟨result, last, Action.bind_eq_ok.mpr ⟨answer, next, done, doneLater⟩, holdsLater⟩

theorem Does.mono (does : Does action tape middle)
    (weaker : ∀ answer next, middle answer next → after answer next) :
    Does action tape after := by
  obtain ⟨answer, next, done, holds⟩ := does
  exact ⟨answer, next, done, weaker answer next holds⟩

end Does

/-! ## Single moves -/

section Moves

open TableFeed.Action

variable {tape : Tape text} {tokens : List PlacedToken} {before pending rest : List Char}

theorem next_of_stands (stands : tape.Stands tokens before pending rest) :
    next tape = .ok (rest.head?.getD endMark, tape.moved .next
      ⟨tape.head.start, tape.head.position + byteLength (rest.take 1),
        byteLength (rest.take 1)⟩) := by
  have behind : behind? tape.head.position text.toList = some rest := by
    rw [stands.split, stands.position, ← byteLength_append, ← List.append_assoc, behind?_append]
  cases rest with
  | nil =>
      simp only [next, behind]
      rfl
  | cons character rest =>
      simp only [next, behind]
      rfl

theorem Tape.WentOn.stands (wentOn : tape.WentOn tokens before pending rest) :
    tape.Stands tokens before (pending ++ rest.take 1) (rest.drop 1) := by
  obtain ⟨earlier, stands, character, went⟩ := wentOn
  obtain ⟨-, rfl⟩ := Prod.mk.inj (Except.ok.inj ((next_of_stands stands).symm.trans went))
  apply stands.moved
  case split => rw [stands.split, List.append_assoc, List.take_append_drop]
  case start => exact stands.start
  case position => rw [byteLength_append, ← Nat.add_assoc, ← stands.position]
  case emptied => nofun
  case undone => nofun

theorem does_next (stands : tape.Stands tokens before pending rest) :
    Does next tape fun answer later => answer = rest.head?.getD endMark ∧
      later.WentOn tokens before pending rest :=
  ⟨_, _, next_of_stands stands, rfl, tape, stands, _, next_of_stands stands⟩

theorem does_next_cons {character : Char}
    (stands : tape.Stands tokens before pending (character :: rest)) :
    Does next tape fun answer later => answer = character ∧
      later.WentOn tokens before pending (character :: rest) :=
  does_next stands

theorem does_back (wentOn : tape.WentOn tokens before pending rest) :
    Does back tape fun _ later => later.Stands tokens before pending rest := by
  have reached := wentOn.stands
  obtain ⟨earlier, stands, character, went⟩ := wentOn
  obtain ⟨-, rfl⟩ := Prod.mk.inj (Except.ok.inj ((next_of_stands stands).symm.trans went))
  have returns : earlier.head.position + byteLength (rest.take 1) - byteLength (rest.take 1) =
      earlier.head.position := Nat.add_sub_cancel _ _
  refine ⟨(), _, if_neg (Nat.not_lt.mpr (Nat.le_add_left _ _)), ?_⟩
  apply reached.moved
  case split => exact stands.split
  case start => exact stands.start
  case position => exact returns.trans stands.position
  case emptied => nofun
  case undone => exact fun _ => ⟨_, _, rfl, rfl, rfl, returns⟩

theorem does_peek (stands : tape.Stands tokens before pending rest) :
    Does peek tape fun answer later => answer = rest.head?.getD endMark ∧
      later.Stands tokens before pending rest := by
  apply (does_next stands).bind
  rintro character middle ⟨same, wentOn⟩
  apply (does_back wentOn).bind
  intro _ later returned
  exact does_pure ⟨same, returned⟩

theorem does_pending (stands : tape.Stands tokens before pending rest) :
    Does Action.pending tape fun answer later => answer = pending ∧ later = tape := by
  have piece : piece? tape.head.start tape.head.position text.toList = some pending := by
    rw [stands.split, stands.start, stands.position, piece?_append]
  refine ⟨pending, tape, ?_, rfl, rfl⟩
  simp only [Action.pending, piece]

/-- Behind the pending piece the next one starts. -/
theorem Tape.Stands.emptied (stands : tape.Stands tokens before pending rest) (move : Move)
    (other : move ≠ .back) :
    (tape.moved move { tape.head with start := tape.head.position }).Stands tokens
      (before ++ pending) [] rest := by
  apply stands.moved
  case split => rw [stands.split, List.append_assoc, List.nil_append]
  case start => rw [byteLength_append, ← stands.position]
  case position => rw [byteLength_append, ← stands.position]; rfl
  case emptied => exact fun _ => rfl
  case undone => exact fun back => (other back).elim

theorem does_leave (stands : tape.Stands tokens before pending rest) :
    Does leave tape fun _ later => later.Stands tokens (before ++ pending) [] rest :=
  ⟨(), _, rfl, stands.emptied .leave nofun⟩

theorem does_take (stands : tape.Stands tokens before pending rest) :
    Does take tape fun answer later => answer = pending ∧
      later.Stands tokens (before ++ pending) [] rest := by
  apply (does_pending stands).bind
  rintro piece _ ⟨rfl, rfl⟩
  exact does_modify_bind (does_pure ⟨rfl, stands.emptied .take nofun⟩)

theorem does_emit (kind : Token.Kind) (stands : tape.Stands tokens before pending rest) :
    Does (emit kind) tape fun _ later =>
      later.Stands (tokens ++ [⟨⟨kind, String.ofList pending⟩, some (byteLength before)⟩])
        (before ++ pending) [] rest := by
  have whole : byteLength text.toList = tape.head.position + byteLength rest := by
    rw [stands.split, stands.position, byteLength_append, byteLength_append, Nat.add_assoc]
  have placed : tape.head.start ≤ tape.head.position ∧
      tape.head.position ≤ byteLength text.toList := by
    have start := stands.start
    have position := stands.position
    omega
  apply does_get_bind
  rw [if_pos placed]
  apply (does_take stands).bind
  rintro piece later ⟨rfl, emptied⟩
  rw [stands.start]
  exact does_modify (emptied.given nofun)

theorem does_report (fault : Fault) (piece : List Char)
    (stands : tape.Stands tokens before pending rest) :
    Does (report fault piece) tape fun answer later => answer = none ∧
      later.Stands (tokens ++ [Scanner.errorToken fault piece]) (before ++ pending) [] rest := by
  apply (does_leave stands).bind
  intro _ left emptied
  exact does_modify_bind (does_pure ⟨rfl, emptied.given nofun⟩)

theorem does_refuse (fault : Fault) (stands : tape.Stands tokens before pending rest) :
    Does (refuse fault) tape fun answer later => answer = none ∧
      later.Stands (tokens ++ [Scanner.errorToken fault pending]) (before ++ pending) []
        rest := by
  apply (does_take stands).bind
  rintro piece later ⟨rfl, emptied⟩
  have reported := does_report fault piece emptied
  rwa [List.append_nil] at reported

/-! ## Runs of characters -/

theorem overshoot_eq (run : CharRun) :
    overshoot run = (do if run.belongs (← next) then overshoot run else pure () :
      Action text Unit) := by
  funext tape
  rw [overshoot]
  cases went : next tape with
  | error jam => simp [bind, StateT.bind, Except.bind, went]
  | ok reached =>
      obtain ⟨character, later⟩ := reached
      by_cases inside : run.belongs character = true
      · simp [bind, StateT.bind, Except.bind, went, inside]
      · simp [bind, StateT.bind, Except.bind, went, inside]
        rfl

theorem does_overshoot (run : CharRun) (stands : tape.Stands tokens before pending rest) :
    Does (overshoot run) tape fun _ later => later.WentOn tokens before
      (pending ++ rest.takeWhile run.belongs) (rest.dropWhile run.belongs) := by
  induction rest generalizing tape pending with
  | nil =>
      rw [overshoot_eq]
      apply (does_next stands).bind
      rintro _ later ⟨rfl, wentOn⟩
      rw [List.head?_nil, Option.getD_none, run.ends]
      exact does_pure (by simpa using wentOn)
  | cons character rest ih =>
      rw [overshoot_eq]
      apply (does_next stands).bind
      rintro character later ⟨rfl, wentOn⟩
      by_cases inside : run.belongs character = true
      · rw [if_pos inside, List.takeWhile_cons_of_pos inside, List.dropWhile_cons_of_pos inside,
          List.append_cons]
        exact ih wentOn.stands
      · rw [if_neg inside, List.takeWhile_cons_of_neg inside, List.dropWhile_cons_of_neg inside,
          List.append_nil]
        exact does_pure wentOn

theorem does_pass (run : CharRun) (stands : tape.Stands tokens before pending rest) :
    Does (pass run) tape fun _ later => later.Stands tokens before
      (pending ++ rest.takeWhile run.belongs) (rest.dropWhile run.belongs) :=
  (does_overshoot run stands).bind fun _ _ wentOn => does_back wentOn

theorem does_skipBlanks (stands : tape.Stands tokens before [] rest) :
    Does skipBlanks tape fun _ later => later.Stands tokens
      (before ++ rest.takeWhile isBlank) [] (rest.dropWhile isBlank) :=
  (does_pass .blanks stands).bind fun _ _ passed => does_leave passed

theorem close_eq : close = (do
    let character ← next
    if character = quoteMark then
      if (← peek) = quoteMark then
        let _ ← next
        close
      else return true
    else if character = endMark ∧ (← get).atEnd then return false
    else close : Action text Bool) := by
  funext tape
  rw [close]
  simp only [bind, StateT.bind, Except.bind]
  cases next tape with
  | error jam => rfl
  | ok reached =>
      obtain ⟨character, first⟩ := reached
      by_cases quoted : character = quoteMark
      · simp only [quoted, ↓reduceDIte, ↓reduceIte, StateT.bind, bind, Except.bind]
        cases peek first with
        | error jam => rfl
        | ok seen =>
            obtain ⟨following, second⟩ := seen
            by_cases pair : following = quoteMark
            · simp only [pair, ↓reduceIte, StateT.bind, bind, Except.bind]
              cases next second with
              | error jam => rfl
              | ok paired => rfl
            · simp only [pair, ↓reduceIte]
              rfl
      · simp only [quoted, ↓reduceDIte, ↓reduceIte]
        change _ = (if character = endMark ∧ first.atEnd = true then pure false
          else close : Action text Bool) first
        by_cases ended : character = endMark ∧ first.atEnd = true
        · rw [dif_pos ended, if_pos ended]
          rfl
        · rw [dif_neg ended, if_neg ended]

/-- A quoted value is closed by the first quotation mark that pairs with no other. -/
theorem does_close (stands : tape.Stands tokens before pending rest) :
    Does close tape fun answer later => answer = (Quoted.closed? rest).isSome ∧
      ∃ behind, later.Stands tokens before (pending ++ (Quoted.closed? rest).getD rest) behind := by
  fun_induction Quoted.closed? rest generalizing tape pending with
  | case1 rest ih =>
      rw [close_eq]
      apply (does_next_cons stands).bind
      rintro _ first ⟨rfl, wentOn⟩
      rw [if_pos rfl]
      apply (does_peek wentOn.stands).bind
      rintro following second ⟨same, looked⟩
      have pair : following = quoteMark := same
      rw [if_pos pair]
      apply (does_next looked).bind
      rintro _ third ⟨-, paired⟩
      apply (ih paired.stands).mono
      rintro answer later ⟨rfl, behind, closed⟩
      refine ⟨Option.isSome_map.symm, behind, ?_⟩
      have whole := Option.getD_map (quoteMark :: quoteMark :: ·) rest (Quoted.closed? rest)
      rw [whole]
      simpa using closed
  | case2 rest noPair =>
      rw [close_eq]
      apply (does_next_cons stands).bind
      rintro _ first ⟨rfl, wentOn⟩
      rw [if_pos rfl]
      apply (does_peek wentOn.stands).bind
      rintro following second ⟨same, looked⟩
      have single : following ≠ quoteMark := by
        rintro rfl
        cases rest with
        | nil => exact absurd same (by decide)
        | cons character rest => exact noPair rest (congrArg (· :: rest) same.symm)
      rw [if_neg single]
      exact does_pure ⟨rfl, rest, looked⟩
  | case3 character rest notPair notMark ih =>
      rw [close_eq]
      apply (does_next_cons stands).bind
      rintro character first ⟨rfl, wentOn⟩
      have reached : first.Stands tokens before (pending ++ [character]) rest := wentOn.stands
      have other : character ≠ quoteMark := notMark
      rw [if_neg other]
      apply does_get_bind
      by_cases ended : character = endMark ∧ first.atEnd = true
      · -- A null character at the end of the text is taken for the end.
        obtain rfl : rest = [] := List.isEmpty_iff.mp (reached.atEnd_eq.symm.trans ended.2)
        rw [if_pos ended]
        exact does_pure ⟨rfl, [], reached⟩
      · rw [if_neg ended]
        apply (ih reached).mono
        rintro answer later ⟨rfl, behind, closed⟩
        refine ⟨Option.isSome_map.symm, behind, ?_⟩
        have whole := Option.getD_map (character :: ·) rest (Quoted.closed? rest)
        rw [whole]
        simpa using closed
  | case4 =>
      rw [close_eq]
      apply (does_next stands).bind
      rintro character first ⟨rfl, wentOn⟩
      have ended := wentOn.stands
      rw [List.take_nil, List.append_nil, List.drop_nil] at ended
      rw [if_neg (by decide)]
      apply does_get_bind
      rw [if_pos ⟨rfl, ended.atEnd_eq⟩]
      exact does_pure ⟨rfl, [], by simpa using ended⟩

end Moves

end TableFeed
