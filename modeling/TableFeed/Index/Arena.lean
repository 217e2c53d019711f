/-!
# An arena of linked rows

Rows are kept in lists, and all lists share one arena of slots. Each occupied slot holds a row and
the slots before and behind it in its list. A slot that is freed can be taken again: the slot freed
last is taken first. The lists are known to their owners by their first slot, which stays the same
as long as the list has a row. Whoever names a slot that is not occupied learns that the slot is
stale.

The main statement says that freeing an occupied slot leaves fewer occupied slots, so that a list
can be freed to its end, whatever the links look like.
-/

namespace TableFeed

/-- A row of a table, by its number. -/
abbrev Row := Nat

/-- A slot of an arena, by its number. -/
structure Slot where
  number : Nat
  deriving DecidableEq

/-- What an occupied slot holds: a row, and its neighbours in the list. -/
structure Cell where
  previous : Option Slot
  next : Option Slot
  row : Row
  deriving DecidableEq

/-- The slot named is not occupied. -/
structure StaleSlot where
  slot : Slot
  deriving DecidableEq

/-- The slots, those of them that were freed, last freed first, and the number of those that are
occupied. -/
structure Arena where
  slots : Array (Option Cell)
  free : List Slot
  size : Nat
  deriving DecidableEq

namespace Arena

/-- The arena without any slots. -/
def empty : Arena :=
  ⟨#[], [], 0⟩

/-- Whether no slot is occupied. -/
def isEmpty (arena : Arena) : Bool :=
  arena.size == 0

/-- What a slot holds. -/
def cell? (arena : Arena) (slot : Slot) : Option Cell :=
  arena.slots[slot.number]?.join

/-- Whether a slot is occupied. -/
def contains (arena : Arena) (slot : Slot) : Bool :=
  (arena.cell? slot).isSome

/-- What an occupied slot holds. -/
def cell (arena : Arena) (slot : Slot) : Except StaleSlot Cell :=
  match arena.cell? slot with
  | some cell => .ok cell
  | none => .error ⟨slot⟩

/-- The number of occupied slots, counted one by one. -/
def occupied (arena : Arena) : Nat :=
  arena.slots.countP Option.isSome

/-- Change what an occupied slot holds. -/
def modify (arena : Arena) (slot : Slot) (change : Cell → Cell) : Except StaleSlot Arena := do
  let cell ← arena.cell slot
  return { arena with slots := arena.slots.setIfInBounds slot.number (some (change cell)) }

/-- Put a cell into a slot: the one freed last, or else a new one. -/
def take (arena : Arena) (cell : Cell) : Slot × Arena :=
  match arena.free with
  | slot :: free =>
      (slot, ⟨arena.slots.setIfInBounds slot.number (some cell), free, arena.size + 1⟩)
  | [] => (⟨arena.slots.size⟩, ⟨arena.slots.push (some cell), [], arena.size + 1⟩)

/-- Free a slot. -/
def release (arena : Arena) (slot : Slot) : Arena :=
  ⟨arena.slots.setIfInBounds slot.number none, slot :: arena.free, arena.size - 1⟩

/-- Put a row into a slot directly behind the given one, or without one into a list of its own. The
slot for the row is taken first. -/
def add (arena : Arena) (head : Option Slot) (row : Row) : Except StaleSlot (Slot × Arena) := do
  let (slot, arena) := arena.take ⟨none, none, row⟩
  match head with
  | none => return (slot, arena)
  | some head =>
      let next := (← arena.cell head).next
      let arena ← arena.modify head fun cell => { cell with next := some slot }
      let arena ← arena.modify slot fun cell => { cell with previous := some head, next := next }
      match next with
      | none => return (slot, arena)
      | some next =>
          return (slot, ← arena.modify next fun cell => { cell with previous := some slot })

/-- Remove the row in a slot from its list, and tell whether it was the only one there. The first
slot of a list that has other rows stays occupied: the second row moves into it. -/
def remove (arena : Arena) (slot : Slot) : Except StaleSlot (Bool × Arena) := do
  let cell ← arena.cell slot
  match cell.previous, cell.next with
  | some previous, none =>
      let arena ← arena.modify previous fun cell => { cell with next := none }
      return (false, arena.release slot)
  | some previous, some next =>
      let arena ← arena.modify previous fun cell => { cell with next := some next }
      let arena ← arena.modify next fun cell => { cell with previous := some previous }
      return (false, arena.release slot)
  | none, none => return (true, arena.release slot)
  | none, some next =>
      let second ← arena.cell next
      let arena ← arena.modify slot fun cell =>
        { cell with row := second.row, next := second.next }
      match second.next with
      | none => return (false, arena.release next)
      | some third =>
          let arena ← arena.modify third fun cell => { cell with previous := some slot }
          return (false, arena.release next)

theorem occupied_release_lt {arena : Arena} {slot : Slot} {cell : Cell}
    (found : arena.cell? slot = some cell) : (arena.release slot).occupied < arena.occupied := by
  obtain ⟨inside, holds⟩ := Array.getElem?_eq_some_iff.mp (Option.join_eq_some_iff.mp found)
  have counted := Array.boole_getElem_le_countP (p := Option.isSome) inside
  simp only [holds, Option.isSome_some, if_true] at counted
  simp only [occupied, release, Array.setIfInBounds, inside, dite_true, Array.countP_set, holds,
    Option.isSome_some, Option.isSome_none, if_true, Bool.false_eq_true, if_false]
  omega

/-- Free the slots from the given one to the end of its list, and count them. -/
def removeList (arena : Arena) (head : Slot) : Except StaleSlot (Nat × Arena) :=
  match _found : arena.cell? head with
  | none => .error ⟨head⟩
  | some cell =>
      match cell.next with
      | none => .ok (1, arena.release head)
      | some next => do
          let (count, rest) ← (arena.release head).removeList next
          return (count + 1, rest)
termination_by arena.occupied
decreasing_by exact occupied_release_lt _found

/-- The rows from the given slot on, at most as many as the limit says. -/
def walk (arena : Arena) : Nat → Option Slot → Except StaleSlot (List Row)
  | 0, _ => .ok []
  | _ + 1, none => .ok []
  | limit + 1, some slot => do
      let cell ← arena.cell slot
      return cell.row :: (← arena.walk limit cell.next)

end Arena

end TableFeed
