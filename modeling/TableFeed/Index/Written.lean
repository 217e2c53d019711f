import TableFeed.Index.Arena
import TableFeed.Text.Term

/-!
# How arenas are shown

An arena is shown as a term, slot by slot, and a stale slot by a message that names it.
-/

namespace TableFeed

/-- The term of a slot. -/
def Slot.term (slot : Slot) : Term :=
  .apply "TagId" (.number slot.number)

/-- The term of a cell. -/
def Cell.term (cell : Cell) : Term :=
  .record "Tag" [("prev", .optional Slot.term cell.previous),
    ("next", .optional Slot.term cell.next), ("idx", .number cell.row)]

/-- The term of an arena. The free slots are listed in the order in which they were freed. -/
def Arena.term (arena : Arena) : Term :=
  .record "Tags" [("slots", .list (arena.slots.toList.map (Term.optional Cell.term))),
    ("free", .list (arena.free.reverse.map Slot.term)), ("len", .number arena.size)]

/-- The message about a slot that is not occupied. -/
def StaleSlot.message (stale : StaleSlot) : String :=
  "stale tag " ++ stale.slot.term.line

end TableFeed
