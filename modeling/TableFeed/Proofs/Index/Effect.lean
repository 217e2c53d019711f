import TableFeed.Proofs.Index.Cells

/-!
# What adding and removing do to the cells

Adding a row rewrites the cell it is put behind and the cell that stood there before. Removing a
row rewrites the cells on both sides, or moves the next row into its place. The statements below
say, slot by slot, which cells these steps leave behind, as long as the links lead to occupied and
different slots.
-/

namespace TableFeed.Arena

variable {arena : Arena}

/-- A link leads to an occupied slot that is none of the given ones. -/
def LeadsOn (arena : Arena) (link : Option Slot) (avoided : List Slot) : Prop :=
  ∀ slot ∈ link, slot ∉ avoided ∧ ∃ cell, arena.cell? slot = some cell

/-- A link's slot is told that another slot stands in front of it now. -/
def Told (arena later : Arena) (link front : Option Slot) : Prop :=
  ∀ slot ∈ link, ∀ cell ∈ arena.cell? slot,
    later.cell? slot = some { cell with previous := front }

/-- Outside of the given slots and a link's slot, nothing has changed. -/
def SameOutside (arena later : Arena) (link : Option Slot) (touched : List Slot) : Prop :=
  ∀ slot, slot ∉ touched → slot ∉ link → later.cell? slot = arena.cell? slot

/-- Tell the slot of a link which slot stands in front of it. -/
def tell (arena : Arena) (link front : Option Slot) : Except StaleSlot Arena :=
  match link with
  | none => .ok arena
  | some slot => arena.modify slot fun cell => { cell with previous := front }

theorem Balanced.tell {link : Option Slot} (balanced : arena.Balanced)
    (leads : LeadsOn arena link []) (front : Option Slot) :
    ∃ later, arena.tell link front = .ok later ∧ later.Balanced ∧
      Told arena later link front ∧ SameOutside arena later link [] := by
  cases link with
  | none =>
      refine ⟨arena, rfl, balanced, ?_, fun _ _ _ => rfl⟩
      simp [Told]
  | some slot =>
      obtain ⟨-, cell, found⟩ := leads slot rfl
      obtain ⟨later, modified, laterBalanced, cells⟩ :=
        balanced.modify found fun cell => { cell with previous := front }
      refine ⟨later, modified, laterBalanced, ?_, ?_⟩
      · rintro _ ⟨⟩ told holds
        obtain rfl : cell = told := Option.some.inj (found.symm.trans holds)
        rw [cells, Function.update_self]
      · intro other _ unlinked
        have different : other ≠ slot := fun equal => unlinked (congrArg some equal.symm)
        rw [cells, Function.update_of_ne different]

theorem add_alone (balanced : arena.Balanced) (row : Row) :
    ∃ slot later, arena.add none row = .ok (slot, later) ∧ later.Balanced ∧
      arena.cell? slot = none ∧ later.cell? slot = some ⟨none, none, row⟩ ∧
      SameOutside arena later none [slot] := by
  obtain ⟨slot, later, taken, laterBalanced, vacant, cells⟩ := balanced.take ⟨none, none, row⟩
  refine ⟨slot, later, ?_, laterBalanced, vacant, ?_, ?_⟩
  · simp only [add, taken]
    rfl
  · rw [cells, Function.update_self]
  · intro other untouched _
    rw [cells, Function.update_of_ne (List.ne_of_not_mem_cons untouched)]

/-- A row that is added behind an occupied slot gets a free slot between this one and the next. -/
theorem add_behind {head : Slot} {cell : Cell} (balanced : arena.Balanced)
    (found : arena.cell? head = some cell) (leads : LeadsOn arena cell.next [head]) (row : Row) :
    ∃ slot later, arena.add (some head) row = .ok (slot, later) ∧ later.Balanced ∧
      arena.cell? slot = none ∧
      later.cell? head = some { cell with next := some slot } ∧
      later.cell? slot = some ⟨some head, cell.next, row⟩ ∧
      Told arena later cell.next (some slot) ∧
      SameOutside arena later cell.next [head, slot] := by
  obtain ⟨slot, first, taken, firstBalanced, vacant, firstCells⟩ := balanced.take ⟨none, none, row⟩
  have headOther : head ≠ slot := by
    rintro rfl
    simp [found] at vacant
  have headFound : first.cell? head = some cell := by
    rw [firstCells, Function.update_of_ne headOther, found]
  obtain ⟨second, headModified, secondBalanced, secondCells⟩ :=
    firstBalanced.modify headFound fun cell => { cell with next := some slot }
  have slotFound : second.cell? slot = some ⟨none, none, row⟩ := by
    rw [secondCells, Function.update_of_ne headOther.symm, firstCells, Function.update_self]
  obtain ⟨third, slotModified, thirdBalanced, thirdCells⟩ :=
    secondBalanced.modify slotFound
      fun found => { found with previous := some head, next := cell.next }
  have kept : ∀ other, other ∉ [head, slot] → third.cell? other = arena.cell? other := by
    intro other untouched
    simp only [List.mem_cons, List.not_mem_nil, or_false, not_or] at untouched
    rw [thirdCells, Function.update_of_ne untouched.2, secondCells,
      Function.update_of_ne untouched.1, firstCells, Function.update_of_ne untouched.2]
  -- The next slot is occupied, so it is not the one that was taken for the new row.
  have linkOutside : ∀ next ∈ cell.next, next ∉ [head, slot] := by
    intro next linked
    obtain ⟨nextOther, nextCell, nextFound⟩ := leads next linked
    have nextNew : next ≠ slot := by
      rintro rfl
      simp [nextFound] at vacant
    simpa [nextNew] using nextOther
  have thirdLeads : LeadsOn third cell.next [] := by
    intro next linked
    refine ⟨List.not_mem_nil, ?_⟩
    rw [kept next (linkOutside next linked)]
    exact (leads next linked).2
  obtain ⟨later, told, laterBalanced, nextTold, same⟩ := thirdBalanced.tell thirdLeads (some slot)
  refine ⟨slot, later, ?_, laterBalanced, vacant, ?_, ?_, ?_, ?_⟩
  · simp only [add, taken, cell_of_cell? headFound, headModified, slotModified, bind, Except.bind,
      pure, Except.pure]
    cases link : cell.next <;> simp_all [Arena.tell]
  · rw [same head List.not_mem_nil, thirdCells, Function.update_of_ne headOther, secondCells,
      Function.update_self]
    intro linked
    exact linkOutside head linked (by simp)
  · rw [same slot List.not_mem_nil, thirdCells, Function.update_self]
    intro linked
    exact linkOutside slot linked (by simp)
  · intro next linked nextCell holds
    rw [← kept next (linkOutside next linked)] at holds
    exact nextTold next linked nextCell holds
  · intro other untouched unlinked
    rw [same other List.not_mem_nil unlinked, kept other untouched]

theorem remove_only {slot : Slot} {row : Row} (balanced : arena.Balanced)
    (found : arena.cell? slot = some ⟨none, none, row⟩) :
    ∃ later, arena.remove slot = .ok (true, later) ∧ later.Balanced ∧
      later.cell? slot = none ∧ SameOutside arena later none [slot] := by
  refine ⟨arena.release slot, ?_, balanced.release found, ?_, ?_⟩
  · simp only [remove, cell_of_cell? found, bind, Except.bind, pure, Except.pure]
  · rw [cell?_release, Function.update_self]
  · intro other untouched _
    rw [cell?_release, Function.update_of_ne (List.ne_of_not_mem_cons untouched)]

/-- Removing a row changes the cell of a slot that is kept, tells the slot behind, and frees
another slot. -/
theorem Balanced.splice {kept freed : Slot} {keptCell freedCell : Cell} {link : Option Slot}
    (balanced : arena.Balanced) (keptFound : arena.cell? kept = some keptCell)
    (freedFound : arena.cell? freed = some freedCell) (different : kept ≠ freed)
    (leads : LeadsOn arena link [kept, freed]) (change : Cell → Cell) :
    ∃ changed told, arena.modify kept change = .ok changed ∧
      changed.tell link (some kept) = .ok told ∧
      (told.release freed).Balanced ∧
      (told.release freed).cell? kept = some (change keptCell) ∧
      (told.release freed).cell? freed = none ∧
      Told arena (told.release freed) link (some kept) ∧
      SameOutside arena (told.release freed) link [kept, freed] := by
  obtain ⟨changed, modified, changedBalanced, cells⟩ := balanced.modify keptFound change
  have changedLeads : LeadsOn changed link [] := by
    intro behind linked
    obtain ⟨outside, cell, holds⟩ := leads behind linked
    refine ⟨List.not_mem_nil, cell, ?_⟩
    rw [cells, Function.update_of_ne (List.ne_of_not_mem_cons outside), holds]
  obtain ⟨told, tells, toldBalanced, linkTold, same⟩ :=
    changedBalanced.tell changedLeads (some kept)
  have keptUnlinked : kept ∉ link := fun linked => (leads kept linked).1 (by simp)
  have freedUnlinked : freed ∉ link := fun linked => (leads freed linked).1 (by simp)
  have freedKept : told.cell? freed = some freedCell := by
    rw [same freed List.not_mem_nil freedUnlinked, cells, Function.update_of_ne different.symm,
      freedFound]
  refine ⟨changed, told, modified, tells, toldBalanced.release freedKept, ?_, ?_, ?_, ?_⟩
  · rw [cell?_release, Function.update_of_ne different, same kept List.not_mem_nil keptUnlinked,
      cells, Function.update_self]
  · rw [cell?_release, Function.update_self]
  · intro behind linked cell holds
    have outside := (leads behind linked).1
    simp only [List.mem_cons, List.not_mem_nil, or_false, not_or] at outside
    rw [cell?_release, Function.update_of_ne outside.2]
    apply linkTold behind linked cell
    rw [cells, Function.update_of_ne outside.1]
    exact holds
  · intro other untouched unlinked
    simp only [List.mem_cons, List.not_mem_nil, or_false, not_or] at untouched
    rw [cell?_release, Function.update_of_ne untouched.2, same other List.not_mem_nil unlinked,
      cells, Function.update_of_ne untouched.1]

/-- A row behind another one leaves a free slot, and its neighbours are linked to each other. -/
theorem remove_later {slot previous : Slot} {front : Cell} {next : Option Slot} {row : Row}
    (balanced : arena.Balanced) (found : arena.cell? slot = some ⟨some previous, next, row⟩)
    (frontFound : arena.cell? previous = some front) (frontOther : previous ≠ slot)
    (leads : LeadsOn arena next [previous, slot]) :
    ∃ later, arena.remove slot = .ok (false, later) ∧ later.Balanced ∧
      later.cell? previous = some { front with next := next } ∧
      later.cell? slot = none ∧
      Told arena later next (some previous) ∧
      SameOutside arena later next [previous, slot] := by
  obtain ⟨changed, told, modified, tells, effect⟩ :=
    balanced.splice frontFound found frontOther leads fun cell => { cell with next := next }
  refine ⟨told.release slot, ?_, effect⟩
  simp only [remove, cell_of_cell? found, bind, Except.bind, pure, Except.pure]
  cases next with
  | none =>
      obtain rfl : changed = told := Except.ok.inj tells
      simp only [modified]
  | some behind =>
      simp only [Arena.tell] at tells
      simp only [modified, tells]

/-- The first slot of a list stays occupied when its row leaves: the second row moves into it, and
the slot of the second row becomes free. -/
theorem remove_first {slot next : Slot} {row : Row} {second : Cell} (balanced : arena.Balanced)
    (found : arena.cell? slot = some ⟨none, some next, row⟩)
    (nextFound : arena.cell? next = some second) (nextOther : slot ≠ next)
    (leads : LeadsOn arena second.next [slot, next]) :
    ∃ later, arena.remove slot = .ok (false, later) ∧ later.Balanced ∧
      later.cell? slot = some ⟨none, second.next, second.row⟩ ∧
      later.cell? next = none ∧
      Told arena later second.next (some slot) ∧
      SameOutside arena later second.next [slot, next] := by
  obtain ⟨changed, told, modified, tells, effect⟩ :=
    balanced.splice found nextFound nextOther leads
      fun cell => { cell with row := second.row, next := second.next }
  refine ⟨told.release next, ?_, effect⟩
  simp only [remove, cell_of_cell? found, cell_of_cell? nextFound, modified, bind, Except.bind,
    pure, Except.pure]
  cases link : second.next with
  | none =>
      rw [link] at tells
      obtain rfl : changed = told := Except.ok.inj tells
      rfl
  | some third =>
      simp only [Arena.tell, link] at tells
      simp only [tells]

end TableFeed.Arena
