import Std.Data.HashMap
import TableFeed.Index.Arena

/-!
# Which rows hold a value

The index of a column tells which rows hold a value and which value a row holds. Each value with
rows has a list in an arena, and each row knows its slot there, so that it can leave its value
without a search. The row added first stays in front of its list, and each later row is put directly
behind it. The second row moves to the front when the first one leaves.
-/

namespace TableFeed

/-- The index of a column: the lists of rows, the first slot of each value's list, and the value and
slot of each row. -/
structure ValueIndex (K : Type) [DecidableEq K] [Hashable K] where
  arena : Arena
  heads : Std.HashMap K Slot
  entries : Std.HashMap Row (K × Slot)

namespace ValueIndex

variable {K : Type} [DecidableEq K] [Hashable K]

/-- The index of a column without rows. -/
def empty : ValueIndex K :=
  ⟨.empty, ∅, ∅⟩

/-- The number of rows. -/
def size (index : ValueIndex K) : Nat :=
  index.entries.size

/-- Whether there are no rows. -/
def isEmpty (index : ValueIndex K) : Bool :=
  index.entries.isEmpty

/-- The number of values that some row holds. -/
def valueCount (index : ValueIndex K) : Nat :=
  index.heads.size

/-- The value that a row holds. -/
def valueOf? (index : ValueIndex K) (row : Row) : Option K :=
  index.entries[row]?.map Prod.fst

/-- The rows from a slot on. No list is longer than the arena. -/
def rowsFrom (index : ValueIndex K) (head : Option Slot) : Except StaleSlot (List Row) :=
  index.arena.walk index.arena.slots.size head

/-- The rows that hold a value: the first of them, and then the others, added last first. -/
def rows (index : ValueIndex K) (value : K) : Except StaleSlot (List Row) :=
  index.rowsFrom index.heads[value]?

/-- Add a row that holds no value yet. -/
def place (index : ValueIndex K) (value : K) (row : Row) : Except StaleSlot (ValueIndex K) := do
  let head := index.heads[value]?
  let (slot, arena) ← index.arena.add head row
  let heads := if head.isNone then index.heads.insert value slot else index.heads
  return ⟨arena, heads, index.entries.insert row (value, slot)⟩

/-- The row that moves into the given slot when the row there leaves. -/
def successor (index : ValueIndex K) (slot : Slot) : Except StaleSlot (Option Row) := do
  let cell ← index.arena.cell slot
  match cell.previous, cell.next with
  | none, some next => return some (← index.arena.cell next).row
  | _, _ => return none

/-- Remove a row, and tell whether it held a value. -/
def remove (index : ValueIndex K) (row : Row) : Except StaleSlot (Bool × ValueIndex K) := do
  match index.entries[row]? with
  | none => return (false, index)
  | some (value, slot) =>
      let moved ← index.successor slot
      let (emptied, arena) ← index.arena.remove slot
      let heads := if emptied then index.heads.erase value else index.heads
      let entries := index.entries.erase row
      match moved with
      | none => return (true, ⟨arena, heads, entries⟩)
      | some moved =>
          return (true, ⟨arena, heads, entries.modify moved fun (value, _) => (value, slot)⟩)

/-- Make a row hold a value, in place of the value it held before. -/
def insert (index : ValueIndex K) (value : K) (row : Row) : Except StaleSlot (ValueIndex K) := do
  match index.valueOf? row with
  | none => index.place value row
  | some current =>
      if current = value then return index
      else
        let (_, index) ← index.remove row
        index.place value row

/-- Remove all rows that hold a value, and count them. -/
def removeValue (index : ValueIndex K) (value : K) : Except StaleSlot (Nat × ValueIndex K) := do
  match index.heads[value]? with
  | none => return (0, index)
  | some head =>
      let rows ← index.rowsFrom (some head)
      let (count, arena) ← index.arena.removeList head
      return (count, ⟨arena, index.heads.erase value, rows.foldl (·.erase ·) index.entries⟩)

end ValueIndex

end TableFeed
