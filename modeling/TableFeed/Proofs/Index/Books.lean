import TableFeed.Proofs.Index.Lists

/-!
# The books of an arena

Beside its cells an arena keeps books: the stack of freed slots and the number of occupied ones. An
owner who names a freed slot, or frees a list from its middle on, can break the links between the
cells, so that they lead in circles, into other lists or nowhere. The main statement says that the
books stay in balance all the same. It says too that no call ever writes outside of the arena or
lowers the count below zero, so that a stale slot is the only thing that can stop it.
-/

namespace TableFeed.Arena

/-- What stops a call in an arena that checks every slot it writes to and every count it lowers. -/
inductive Mishap
  | stale (slot : Slot)
  | outside (slot : Slot)
  | uncounted
  deriving DecidableEq

/-- A result in which a stale slot is one mishap among others. -/
def watched {α : Type} (result : Except StaleSlot α) : Except Mishap α :=
  result.mapError fun stale => .stale stale.slot

/-- Write to a slot, which has to lie in the arena. -/
def checkedStore (arena : Arena) (slot : Slot) (contents : Option Cell) : Except Mishap Arena :=
  if slot.number < arena.slots.size then .ok (arena.store slot contents)
  else .error (.outside slot)

/-- Put a cell into the slot freed last, which has to lie in the arena, or else into a new one. -/
def checkedTake (arena : Arena) (cell : Cell) : Except Mishap (Slot × Arena) :=
  match arena.free with
  | slot :: free => do
      let written ← arena.checkedStore slot (some cell)
      return (slot, { written with free := free, size := written.size + 1 })
  | [] => .ok (⟨arena.slots.size⟩, ⟨arena.slots.push (some cell), [], arena.size + 1⟩)

/-- Free a slot, which has to lie in the arena and to be counted. -/
def checkedRelease (arena : Arena) (slot : Slot) : Except Mishap Arena := do
  let written ← arena.checkedStore slot none
  if written.size = 0 then .error .uncounted
  else .ok { written with free := slot :: written.free, size := written.size - 1 }

/-- Link a slot that was taken for a new row to the slot in front of it, if there is one. -/
def enter (arena : Arena) (slot : Slot) : Option Slot → Except StaleSlot Arena
  | none => .ok arena
  | some head => do
      let next := (← arena.cell head).next
      let arena ← arena.modify head fun cell => { cell with next := some slot }
      let arena ← arena.modify slot fun cell => { cell with previous := some head, next := next }
      arena.tell next (some slot)

/-- Take the row in a slot out of the links. The answer tells whether the row was the only one of
its list, and which slot is to be freed. -/
def unlink (arena : Arena) (slot : Slot) : Except StaleSlot (Bool × Slot × Arena) := do
  let cell ← arena.cell slot
  match cell.previous, cell.next with
  | some previous, next => do
      let arena ← arena.modify previous fun cell => { cell with next := next }
      return (false, slot, ← arena.tell next (some previous))
  | none, none => return (true, slot, arena)
  | none, some next => do
      let second ← arena.cell next
      let arena ← arena.modify slot fun cell =>
        { cell with row := second.row, next := second.next }
      return (false, next, ← arena.tell second.next (some slot))

theorem eq_release_of_checkedRelease {arena later : Arena} {slot : Slot}
    (released : arena.checkedRelease slot = .ok later) : later = arena.release slot := by
  simp only [checkedRelease, checkedStore] at released
  split at released
  · simp only [bind, Except.bind] at released
    split at released
    · nomatch released
    · cases released
      rfl
  · nomatch released

/-- `add`, with all checks. -/
def checkedAdd (arena : Arena) (head : Option Slot) (row : Row) :
    Except Mishap (Slot × Arena) := do
  let (slot, later) ← arena.checkedTake ⟨none, none, row⟩
  return (slot, ← watched (later.enter slot head))

/-- `remove`, with all checks. -/
def checkedRemove (arena : Arena) (slot : Slot) : Except Mishap (Bool × Arena) := do
  let (only, freed, later) ← watched (arena.unlink slot)
  return (only, ← later.checkedRelease freed)

/-- `removeList`, with all checks. -/
def checkedRemoveList (arena : Arena) (head : Slot) : Except Mishap (Nat × Arena) :=
  match _found : arena.cell? head with
  | none => .error (.stale head)
  | some cell =>
      match _released : arena.checkedRelease head with
      | .error mishap => .error mishap
      | .ok rest =>
          match cell.next with
          | none => .ok (1, rest)
          | some next => do
              let (count, last) ← rest.checkedRemoveList next
              return (count + 1, last)
termination_by arena.occupied
decreasing_by
  rw [eq_release_of_checkedRelease _released]
  exact occupied_release_lt _found

/-- `perform`, with all checks. -/
def checkedPerform (arena : Arena) : Call → Except Mishap (Answer × Arena)
  | .add head row => do
      let (slot, later) ← arena.checkedAdd head row
      return (.taken slot, later)
  | .remove slot => do
      let (only, later) ← arena.checkedRemove slot
      return (.emptied only, later)
  | .removeList head => do
      let (count, later) ← arena.checkedRemoveList head
      return (.freed count, later)
  | .clear => return (.done, empty)

theorem add_eq (arena : Arena) (head : Option Slot) (row : Row) :
    arena.add head row = do
      let later ← (arena.take ⟨none, none, row⟩).2.enter (arena.take ⟨none, none, row⟩).1 head
      return ((arena.take ⟨none, none, row⟩).1, later) := by
  cases head with
  | none => rfl
  | some head =>
      simp only [add, enter, bind_assoc]
      congr 1
      funext cell
      cases cell.next <;> rfl

theorem remove_eq (arena : Arena) (slot : Slot) :
    arena.remove slot = do
      let (only, freed, later) ← arena.unlink slot
      return (only, later.release freed) := by
  simp only [remove, unlink, bind_assoc]
  congr 1
  funext cell
  rcases cell with ⟨_ | previous, _ | next, row⟩
  · rfl
  · simp only [bind_assoc]
    congr 1
    funext second
    cases second.next <;> rfl
  · simp only [bind_assoc]
    rfl
  · simp only [bind_assoc]
    rfl

/-- What a result answers with has the property, if it answers at all. -/
def Yields {α : Type} (after : α → Prop) : Except StaleSlot α → Prop
  | .ok answer => after answer
  | .error _ => True

section Yields

variable {α β : Type} {result : Except StaleSlot α} {second : α → Except StaleSlot β}
variable {middle : α → Prop} {after : β → Prop}

theorem Yields.answer {answer : α} (yields : Yields middle result) (same : result = .ok answer) :
    middle answer := by
  rwa [same] at yields

theorem Yields.bind (yields : Yields middle result)
    (further : ∀ answer, middle answer → Yields after (second answer)) :
    Yields after (result >>= second) := by
  cases result with
  | error stale => trivial
  | ok answer => exact further answer yields

/-- Where the second step meets the same mishaps with all checks as without them, so do both steps
together. -/
theorem Yields.watched_bind {checked : α → Except Mishap β} (yields : Yields middle result)
    (same : ∀ answer, middle answer → checked answer = watched (second answer)) :
    (watched result >>= checked) = watched (result >>= second) := by
  cases result with
  | error stale => rfl
  | ok answer => exact same answer yields

end Yields

/-- At most the links have changed: the books are in balance, and the same slots are occupied. -/
structure Relinked (arena later : Arena) : Prop where
  balanced : later.Balanced
  contains : ∀ slot, later.contains slot = arena.contains slot

section Relinked

variable {arena middle later : Arena} {slot : Slot}

theorem Balanced.relinked (balanced : arena.Balanced) : Relinked arena arena :=
  ⟨balanced, fun _ => rfl⟩

theorem Relinked.trans (first : Relinked arena middle) (second : Relinked middle later) :
    Relinked arena later :=
  ⟨second.balanced, fun slot => (second.contains slot).trans (first.contains slot)⟩

/-- Only an occupied slot can be looked into. -/
theorem yields_cell (arena : Arena) (slot : Slot) :
    Yields (fun cell => arena.cell? slot = some cell) (arena.cell slot) := by
  cases found : arena.cell? slot with
  | none => simp only [Arena.cell, found, Yields]
  | some cell => simp only [Arena.cell, found, Yields]

theorem Balanced.yields_modify (balanced : arena.Balanced) (slot : Slot) (change : Cell → Cell) :
    Yields (Relinked arena) (arena.modify slot change) := by
  cases found : arena.cell? slot with
  | none => simp only [Arena.modify, Arena.cell, found, bind, Except.bind, Yields]
  | some cell =>
      obtain ⟨later, modified, laterBalanced, cells⟩ := balanced.modify found change
      rw [modified]
      refine ⟨laterBalanced, ?_⟩
      intro other
      by_cases equal : other = slot
      · subst other
        simp [contains, cells, found]
      · simp [contains, cells, equal]

theorem Balanced.yields_tell (balanced : arena.Balanced) (link front : Option Slot) :
    Yields (Relinked arena) (arena.tell link front) := by
  cases link with
  | none => exact balanced.relinked
  | some slot => exact balanced.yields_modify slot _

theorem Balanced.yields_enter (balanced : arena.Balanced) (slot : Slot) (head : Option Slot) :
    Yields (Relinked arena) (arena.enter slot head) := by
  cases head with
  | none => exact balanced.relinked
  | some head =>
      apply (yields_cell arena head).bind
      intro cell _
      apply (balanced.yields_modify head _).bind
      intro first firstRelinked
      apply (firstRelinked.balanced.yields_modify slot _).bind
      intro second secondRelinked
      rw [← bind_pure (second.tell _ _)]
      apply (secondRelinked.balanced.yields_tell _ _).bind
      intro third thirdRelinked
      exact (firstRelinked.trans secondRelinked).trans thirdRelinked

/-- A row was taken out of the links, and the slot to be freed is occupied. -/
def Loosened : Bool × Slot × Arena → Prop :=
  fun (_, freed, later) => later.Balanced ∧ later.contains freed = true

theorem Balanced.yields_splice {kept freed : Slot} {cell : Cell} (balanced : arena.Balanced)
    (found : arena.cell? freed = some cell) (change : Cell → Cell) (link : Option Slot) :
    Yields Loosened (do
      let changed ← arena.modify kept change
      return (false, freed, ← changed.tell link (some kept))) := by
  apply (balanced.yields_modify kept change).bind
  intro changed changedRelinked
  apply (changedRelinked.balanced.yields_tell link (some kept)).bind
  intro later laterRelinked
  have relinked := changedRelinked.trans laterRelinked
  refine ⟨relinked.balanced, ?_⟩
  rw [relinked.contains, contains, found, Option.isSome_some]

theorem Balanced.yields_unlink (balanced : arena.Balanced) (slot : Slot) :
    Yields Loosened (arena.unlink slot) := by
  apply (yields_cell arena slot).bind
  intro cell found
  rcases cell with ⟨_ | previous, _ | next, row⟩
  · refine ⟨balanced, ?_⟩
    rw [contains, found, Option.isSome_some]
  · apply (yields_cell arena next).bind
    intro second nextFound
    exact balanced.yields_splice nextFound _ _
  · exact balanced.yields_splice found _ none
  · exact balanced.yields_splice found _ (some next)

end Relinked

/-- The books are in balance behind an answer. -/
def Kept {α : Type} : α × Arena → Prop :=
  fun (_, later) => later.Balanced

section Checks

variable {arena : Arena} {slot : Slot}

theorem Balanced.size_pos {cell : Cell} (balanced : arena.Balanced)
    (found : arena.cell? slot = some cell) : 0 < arena.size := by
  have fewer := occupied_release found
  have counted := balanced.size_eq
  omega

theorem Balanced.checkedTake (balanced : arena.Balanced) (cell : Cell) :
    arena.checkedTake cell = .ok (arena.take cell) := by
  cases stacked : arena.free with
  | nil => simp only [Arena.checkedTake, Arena.take, stacked]
  | cons slot free =>
      have listed : slot ∈ arena.free := by simp [stacked]
      have inside := ((balanced.mem_free slot).mp listed).1
      simp only [Arena.checkedTake, Arena.take, stacked, checkedStore, inside, if_true]
      rfl

theorem Balanced.checkedRelease {cell : Cell} (balanced : arena.Balanced)
    (found : arena.cell? slot = some cell) :
    arena.checkedRelease slot = .ok (arena.release slot) := by
  have inside := inside_of_cell? found
  have counted := Nat.ne_of_gt (balanced.size_pos found)
  simp only [Arena.checkedRelease, checkedStore, inside, if_true]
  exact if_neg counted

theorem Balanced.checkedAdd (balanced : arena.Balanced) (head : Option Slot) (row : Row) :
    arena.checkedAdd head row = watched (arena.add head row) := by
  rw [Arena.checkedAdd, balanced.checkedTake, add_eq]
  cases entered : (arena.take ⟨none, none, row⟩).2.enter (arena.take ⟨none, none, row⟩).1 head <;>
    simp [entered, watched, Except.mapError, bind, Except.bind, pure, Except.pure]

theorem Balanced.yields_add (balanced : arena.Balanced) (head : Option Slot) (row : Row) :
    Yields Kept (arena.add head row) := by
  obtain ⟨slot, taken, take, takenBalanced, -⟩ := balanced.take ⟨none, none, row⟩
  rw [add_eq, take]
  apply (takenBalanced.yields_enter slot head).bind
  intro later relinked
  exact relinked.balanced

theorem Balanced.checkedRemove (balanced : arena.Balanced) (slot : Slot) :
    arena.checkedRemove slot = watched (arena.remove slot) := by
  rw [remove_eq]
  apply (balanced.yields_unlink slot).watched_bind
  rintro ⟨only, freed, later⟩ ⟨laterBalanced, occupied⟩
  obtain ⟨cell, found⟩ := Option.isSome_iff_exists.mp occupied
  simp only [laterBalanced.checkedRelease found]
  rfl

theorem Balanced.yields_remove (balanced : arena.Balanced) (slot : Slot) :
    Yields Kept (arena.remove slot) := by
  rw [remove_eq]
  apply (balanced.yields_unlink slot).bind
  rintro ⟨only, freed, later⟩ ⟨laterBalanced, occupied⟩
  obtain ⟨cell, found⟩ := Option.isSome_iff_exists.mp occupied
  exact laterBalanced.release found

theorem checkedRemoveList_of_cell? {head : Slot} {cell : Cell}
    (found : arena.cell? head = some cell)
    (released : arena.checkedRelease head = .ok (arena.release head)) :
    arena.checkedRemoveList head =
      match cell.next with
      | none => .ok (1, arena.release head)
      | some next => do
          let (count, last) ← (arena.release head).checkedRemoveList next
          return (count + 1, last) := by
  rw [checkedRemoveList]
  split
  · rename_i vacant
    simp [found] at vacant
  · rename_i held holds
    obtain rfl : cell = held := Option.some.inj (found.symm.trans holds)
    split
    · rename_i mishap stopped
      simp [released] at stopped
    · rename_i rest went
      obtain rfl : arena.release head = rest := Except.ok.inj (released.symm.trans went)
      rfl

/-- Each step along a list frees a slot that is occupied, whatever the links look like. -/
theorem Balanced.removeList_spec (balanced : arena.Balanced) (head : Slot) :
    arena.checkedRemoveList head = watched (arena.removeList head) ∧
      Yields Kept (arena.removeList head) := by
  fun_induction arena.removeList head with
  | case1 arena head vacant =>
      refine ⟨?_, trivial⟩
      rw [checkedRemoveList]
      split
      · rfl
      · rename_i held holds
        simp [vacant] at holds
  | case2 arena head cell found last =>
      have rest := balanced.release found
      rw [checkedRemoveList_of_cell? found (balanced.checkedRelease found), last]
      exact ⟨rfl, rest⟩
  | case3 arena head cell found next leads ih =>
      obtain ⟨same, yields⟩ := ih (balanced.release found)
      rw [checkedRemoveList_of_cell? found (balanced.checkedRelease found), leads]
      refine ⟨?_, yields.bind fun _ kept => kept⟩
      simp only [same]
      exact yields.watched_bind fun _ _ => rfl

/-- A call meets the same mishaps with all checks as without them, and keeps the books in
balance. -/
theorem Balanced.perform_spec (balanced : arena.Balanced) (call : Call) :
    arena.checkedPerform call = watched (arena.perform call) ∧
      Yields Kept (arena.perform call) := by
  cases call with
  | add head row =>
      have yields := balanced.yields_add head row
      simp only [checkedPerform, balanced.checkedAdd]
      exact ⟨yields.watched_bind fun _ _ => rfl, yields.bind fun _ kept => kept⟩
  | remove slot =>
      have yields := balanced.yields_remove slot
      simp only [checkedPerform, balanced.checkedRemove]
      exact ⟨yields.watched_bind fun _ _ => rfl, yields.bind fun _ kept => kept⟩
  | removeList head =>
      obtain ⟨same, yields⟩ := balanced.removeList_spec head
      simp only [checkedPerform, same]
      exact ⟨yields.watched_bind fun _ _ => rfl, yields.bind fun _ kept => kept⟩
  | clear => exact ⟨rfl, balanced_empty⟩

end Checks

/-- What an owner does with an arena: ask for a change, look into a slot, or walk along some of a
list. -/
inductive Act
  | call (call : Call)
  | look (slot : Slot)
  | walk (limit : Nat) (head : Option Slot)
  deriving DecidableEq

/-- The arena that an act leaves behind. -/
def after (arena : Arena) : Act → Except StaleSlot Arena
  | .call call => do
      let (_, later) ← arena.perform call
      return later
  | .look slot => do
      let _ ← arena.cell slot
      return arena
  | .walk limit head => do
      let _ ← arena.walk limit head
      return arena

/-- The arena that some acts leave behind, one after another, up to the first stale slot. -/
def afterAll (arena : Arena) : List Act → Except StaleSlot Arena
  | [] => .ok arena
  | act :: acts => do
      let later ← arena.after act
      later.afterAll acts

/-- `after`, with all checks. -/
def checkedAfter (arena : Arena) : Act → Except Mishap Arena
  | .call call => do
      let (_, later) ← arena.checkedPerform call
      return later
  | .look slot => do
      let _ ← watched (arena.cell slot)
      return arena
  | .walk limit head => do
      let _ ← watched (arena.walk limit head)
      return arena

/-- `afterAll`, with all checks. -/
def checkedAfterAll (arena : Arena) : List Act → Except Mishap Arena
  | [] => .ok arena
  | act :: acts => do
      let later ← arena.checkedAfter act
      later.checkedAfterAll acts

/-- The books of an arena in balance, in full: besides, each slot is either occupied or freed, and
the arena is empty when no slot is occupied. -/
structure Audited (arena : Arena) : Prop extends arena.Balanced where
  slots_size : arena.slots.size = arena.size + arena.free.length
  isEmpty_iff : arena.isEmpty = true ↔ ∀ slot, arena.contains slot = false

section Acts

variable {arena : Arena}

theorem Balanced.isEmpty_iff (balanced : arena.Balanced) :
    arena.isEmpty = true ↔ ∀ slot, arena.contains slot = false := by
  rw [isEmpty, beq_iff_eq, balanced.size_eq, occupied_eq_card, Finset.card_eq_zero]
  constructor
  · intro nothing slot
    by_contra occupied
    have member := mem_occupiedNumbers.mpr (Bool.eq_true_of_not_eq_false occupied)
    simp [nothing] at member
  · intro vacant
    apply Finset.eq_empty_of_forall_notMem
    intro number member
    have occupied : arena.contains ⟨number⟩ = true := mem_occupiedNumbers.mp member
    simp [vacant] at occupied

theorem Balanced.audited (balanced : arena.Balanced) : arena.Audited :=
  ⟨balanced, balanced.slots_size, balanced.isEmpty_iff⟩

theorem Balanced.after_spec (balanced : arena.Balanced) (act : Act) :
    arena.checkedAfter act = watched (arena.after act) ∧ Yields Balanced (arena.after act) := by
  cases act with
  | call call =>
      obtain ⟨same, yields⟩ := balanced.perform_spec call
      simp only [checkedAfter, same]
      exact ⟨yields.watched_bind fun _ _ => rfl, yields.bind fun _ kept => kept⟩
  | look slot =>
      have yields := yields_cell arena slot
      exact ⟨yields.watched_bind fun _ _ => rfl, yields.bind fun _ _ => balanced⟩
  | walk limit head =>
      have yields : Yields (fun _ => True) (arena.walk limit head) := by
        cases arena.walk limit head <;> trivial
      exact ⟨yields.watched_bind fun _ _ => rfl, yields.bind fun _ _ => balanced⟩

theorem Balanced.afterAll_spec (balanced : arena.Balanced) (acts : List Act) :
    arena.checkedAfterAll acts = watched (arena.afterAll acts) ∧
      Yields Balanced (arena.afterAll acts) := by
  induction acts generalizing arena with
  | nil => exact ⟨rfl, balanced⟩
  | cons act acts ih =>
      obtain ⟨same, yields⟩ := balanced.after_spec act
      simp only [checkedAfterAll, same]
      constructor
      · apply yields.watched_bind
        intro later laterBalanced
        exact (ih laterBalanced).1
      · apply yields.bind
        intro later laterBalanced
        exact (ih laterBalanced).2

end Acts

/-- Whatever an owner does with a new arena, and whatever slots are named: with all checks it meets
the same stale slots as without them and no other mishap, and up to the first of them the books are
in balance. -/
theorem audited_of_acts (acts : List Act) :
    empty.checkedAfterAll acts = watched (empty.afterAll acts) ∧
      Yields Audited (empty.afterAll acts) := by
  obtain ⟨same, yields⟩ := balanced_empty.afterAll_spec acts
  refine ⟨same, ?_⟩
  cases reached : empty.afterAll acts with
  | error stale => trivial
  | ok arena => exact (yields.answer reached).audited

end TableFeed.Arena
