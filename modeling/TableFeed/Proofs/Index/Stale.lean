import TableFeed.Proofs.Index.Books

/-!
# Naming a freed slot

A slot that is not occupied is noticed as stale when its row or its neighbours are asked for, when
its row is to be removed, and when a list is to be freed or walked along from it. A new row behind
it is another matter: the row takes its own slot before the slot in front of it is looked at, and
so it can take the very slot that it is to be put behind. The main statement says that this is the
only case in which a freed slot goes unnoticed.
-/

namespace TableFeed.Arena

/-- The slot that a new row will take: the one freed last, or else a new one. -/
def nextSlot (arena : Arena) : Slot :=
  arena.free.head?.getD ⟨arena.slots.size⟩

/-- A slot is noticed as stale in whatever way it is named, except that a new row may take it. Then
the row becomes its own neighbour. -/
structure Noticed (arena : Arena) (slot : Slot) : Prop where
  row : Cell.row <$> arena.cell slot = .error ⟨slot⟩
  next : Cell.next <$> arena.cell slot = .error ⟨slot⟩
  previous : Cell.previous <$> arena.cell slot = .error ⟨slot⟩
  remove : arena.remove slot = .error ⟨slot⟩
  removeList : arena.removeList slot = .error ⟨slot⟩
  walk : ∀ limit, arena.walk (limit + 1) (some slot) = .error ⟨slot⟩
  add : ∀ row, arena.add (some slot) row = .error ⟨slot⟩ ↔ arena.nextSlot ≠ slot
  taken : ∀ row, arena.nextSlot = slot → ∃ later,
    arena.add (some slot) row = .ok (slot, later) ∧
      later.cell? slot = some ⟨some slot, none, row⟩

section Vacant

variable {arena : Arena} {slot : Slot}

theorem take_fst (arena : Arena) (cell : Cell) : (arena.take cell).1 = arena.nextSlot := by
  cases stacked : arena.free with
  | nil => simp [take, nextSlot, stacked]
  | cons slot free => simp [take, nextSlot, stacked]

theorem cell_of_vacant (vacant : arena.cell? slot = none) : arena.cell slot = .error ⟨slot⟩ := by
  simp only [Arena.cell, vacant]

theorem walk_of_vacant (vacant : arena.cell? slot = none) (limit : Nat) :
    arena.walk (limit + 1) (some slot) = .error ⟨slot⟩ := by
  simp only [walk, cell_of_vacant vacant]
  rfl

theorem removeList_of_vacant (vacant : arena.cell? slot = none) :
    arena.removeList slot = .error ⟨slot⟩ := by
  rw [removeList]
  split
  · rfl
  · rename_i cell found
    simp [vacant] at found

/-- A row that takes another slot finds the freed slot in front of it still free. -/
theorem Balanced.add_of_vacant (balanced : arena.Balanced) (vacant : arena.cell? slot = none)
    (other : arena.nextSlot ≠ slot) (row : Row) :
    arena.add (some slot) row = .error ⟨slot⟩ := by
  obtain ⟨taken, later, took, -, -, cells⟩ := balanced.take ⟨none, none, row⟩
  have isNext : taken = arena.nextSlot := by
    rw [← take_fst arena ⟨none, none, row⟩, took]
  have stillVacant : later.cell? slot = none := by
    rw [cells, isNext, Function.update_of_ne other.symm, vacant]
  simp only [add_eq, took, enter, cell_of_vacant stillVacant]
  rfl

/-- A row that takes the freed slot in front of it is linked to itself. -/
theorem Balanced.add_of_nextSlot (balanced : arena.Balanced) (isNext : arena.nextSlot = slot)
    (row : Row) :
    ∃ later, arena.add (some slot) row = .ok (slot, later) ∧
      later.cell? slot = some ⟨some slot, none, row⟩ := by
  obtain ⟨taken, first, took, firstBalanced, -, cells⟩ := balanced.take ⟨none, none, row⟩
  obtain rfl : taken = slot := by
    rw [← isNext, ← take_fst arena ⟨none, none, row⟩, took]
  have found : first.cell? taken = some ⟨none, none, row⟩ := by
    rw [cells, Function.update_self]
  obtain ⟨second, secondModified, secondBalanced, secondCells⟩ :=
    firstBalanced.modify found fun cell => { cell with next := some taken }
  have secondFound : second.cell? taken = some ⟨none, some taken, row⟩ := by
    rw [secondCells, Function.update_self]
  obtain ⟨third, thirdModified, -, thirdCells⟩ := secondBalanced.modify secondFound
    fun cell => { cell with previous := some taken, next := none }
  refine ⟨third, ?_, ?_⟩
  · simp only [add_eq, took, enter, cell_of_cell? found, secondModified, thirdModified, Arena.tell,
      bind, Except.bind, pure, Except.pure]
  · rw [thirdCells, Function.update_self]

theorem Balanced.noticed (balanced : arena.Balanced) (vacant : arena.cell? slot = none) :
    arena.Noticed slot where
  row := by rw [cell_of_vacant vacant]; rfl
  next := by rw [cell_of_vacant vacant]; rfl
  previous := by rw [cell_of_vacant vacant]; rfl
  remove := by rw [Arena.remove, cell_of_vacant vacant]; rfl
  removeList := removeList_of_vacant vacant
  walk := walk_of_vacant vacant
  add row := by
    constructor
    · intro stale isNext
      obtain ⟨later, added, -⟩ := balanced.add_of_nextSlot isNext row
      rw [stale] at added
      cases added
    · intro other
      exact balanced.add_of_vacant vacant other row
  taken row isNext := balanced.add_of_nextSlot isNext row

end Vacant

/-- Whatever was done with a new arena, a slot that is not occupied is noticed as stale, unless it
is named as the one to put a row behind and the row takes it. -/
theorem noticed_of_acts (acts : List Act) (arena : Arena) (slot : Slot)
    (reached : empty.afterAll acts = .ok arena) (vacant : arena.contains slot = false) :
    arena.Noticed slot := by
  have balanced := ((balanced_empty.afterAll_spec acts).2).answer reached
  apply balanced.noticed
  simpa [contains] using vacant

/-- Two rows are added and removed again. -/
def emptiedActs : List Act :=
  [.call (.add none 1), .call (.add none 2), .call (.remove ⟨0⟩), .call (.remove ⟨1⟩)]

/-- Of two freed slots, the one freed first is not the next to be taken, so it is always noticed. -/
theorem noticed_freedFirst :
    empty.afterAll emptiedActs = .ok ⟨#[none, none], [⟨1⟩, ⟨0⟩], 0⟩ ∧
      contains ⟨#[none, none], [⟨1⟩, ⟨0⟩], 0⟩ ⟨0⟩ = false ∧
      nextSlot ⟨#[none, none], [⟨1⟩, ⟨0⟩], 0⟩ ≠ ⟨0⟩ ∧
      Noticed ⟨#[none, none], [⟨1⟩, ⟨0⟩], 0⟩ ⟨0⟩ :=
  ⟨rfl, by decide, by decide, noticed_of_acts emptiedActs _ _ rfl (by decide)⟩

/-- A row takes the only freed slot although it is to be put behind it. -/
theorem unnoticed_freedLast :
    empty.ProperRun [.add none 1, .remove ⟨0⟩] ∧
    ∃ first freed later, empty.perform (.add none 1) = .ok (.taken ⟨0⟩, first) ∧
      first.perform (.remove ⟨0⟩) = .ok (.emptied true, freed) ∧
      freed.contains ⟨0⟩ = false ∧ freed.add (some ⟨0⟩) 2 = .ok (⟨0⟩, later) := by
  refine ⟨?_, _, _, _, rfl, rfl, by decide, rfl⟩
  refine properRun_cons nofun rfl ?_
  exact properRun_cons (show contains _ _ = true by decide) rfl trivial

end TableFeed.Arena
