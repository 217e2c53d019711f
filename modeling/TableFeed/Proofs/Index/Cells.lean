import Mathlib.Data.Finset.Card
import Mathlib.Logic.Function.Basic
import TableFeed.Index.Arena

/-!
# The cells of an arena

What an arena says about its lists is which slot holds which cell. Each single step changes this
view at one slot. Beside the cells an arena keeps books: the stack of freed slots and the number of
occupied ones. The main statements say that every single step on an occupied or freshly taken slot
keeps the books in balance with the cells, whatever the links between the cells look like.
-/

namespace TableFeed.Arena

variable {arena : Arena} {slot : Slot} {cell : Cell}

/-- The arena with other contents in a slot. -/
def store (arena : Arena) (slot : Slot) (contents : Option Cell) : Arena :=
  { arena with slots := arena.slots.setIfInBounds slot.number contents }

/-- The books agree with the cells: the freed slots are those without a cell, none of them is
listed twice, and the size counts the slots that have one. -/
structure Balanced (arena : Arena) : Prop where
  nodup : arena.free.Nodup
  mem_free : ∀ slot, slot ∈ arena.free ↔
    slot.number < arena.slots.size ∧ arena.cell? slot = none
  size_eq : arena.size = arena.occupied

theorem number_injective : Function.Injective Slot.number := by
  rintro ⟨first⟩ ⟨second⟩ equal
  exact congrArg Slot.mk equal

theorem inside_of_cell? (found : arena.cell? slot = some cell) :
    slot.number < arena.slots.size :=
  (Array.getElem?_eq_some_iff.mp (Option.join_eq_some_iff.mp found)).1

theorem getElem_of_cell? (found : arena.cell? slot = some cell)
    (inside : slot.number < arena.slots.size) :
    arena.slots[slot.number] = some cell :=
  (Array.getElem?_eq_some_iff.mp (Option.join_eq_some_iff.mp found)).2

theorem cell_of_cell? (found : arena.cell? slot = some cell) :
    arena.cell slot = .ok cell := by
  simp only [Arena.cell, found]

theorem cell?_store (inside : slot.number < arena.slots.size) (contents : Option Cell) :
    (arena.store slot contents).cell? = Function.update arena.cell? slot contents := by
  funext other
  by_cases same : other = slot
  · subst other
    simp [cell?, store, inside]
  · have different : slot.number ≠ other.number := by
      intro equal
      cases slot
      cases other
      exact same (congrArg Slot.mk equal.symm)
    rw [Function.update_of_ne same]
    simp only [cell?, store, Array.getElem?_setIfInBounds, different, if_false]

theorem cell?_release (arena : Arena) (slot : Slot) :
    (arena.release slot).cell? = Function.update arena.cell? slot none := by
  by_cases inside : slot.number < arena.slots.size
  · exact cell?_store inside none
  · have unchanged : (arena.release slot).cell? = arena.cell? := by
      funext other
      simp only [cell?, release, Array.setIfInBounds, inside, dite_false]
    have vacant : arena.cell? slot = none := by
      simp [cell?, inside]
    rw [unchanged, ← vacant, Function.update_eq_self]

theorem occupied_store (found : arena.cell? slot = some cell) (other : Cell) :
    (arena.store slot (some other)).occupied = arena.occupied := by
  have inside := inside_of_cell? found
  have holds := getElem_of_cell? found inside
  have counted := Array.boole_getElem_le_countP (p := Option.isSome) inside
  simp only [holds, Option.isSome_some, if_true] at counted
  simp only [occupied, store, Array.setIfInBounds, inside, dite_true, Array.countP_set, holds,
    Option.isSome_some, if_true]
  omega

theorem occupied_release (found : arena.cell? slot = some cell) :
    (arena.release slot).occupied + 1 = arena.occupied := by
  have inside := inside_of_cell? found
  have holds := getElem_of_cell? found inside
  have counted := Array.boole_getElem_le_countP (p := Option.isSome) inside
  simp only [holds, Option.isSome_some, if_true] at counted
  simp only [occupied, release, Array.setIfInBounds, inside, dite_true, Array.countP_set, holds,
    Option.isSome_some, Option.isSome_none, if_true, Bool.false_eq_true, if_false]
  omega

theorem balanced_empty : empty.Balanced where
  nodup := List.nodup_nil
  mem_free slot := by simp [empty]
  size_eq := by simp [empty, occupied]

theorem Balanced.store (balanced : arena.Balanced) (found : arena.cell? slot = some cell)
    (other : Cell) : (arena.store slot (some other)).Balanced where
  nodup := balanced.nodup
  mem_free freed := by
    have sameSize : (arena.store slot (some other)).slots.size = arena.slots.size :=
      Array.size_setIfInBounds
    rw [cell?_store (inside_of_cell? found), sameSize]
    by_cases same : freed = slot
    · subst freed
      simp only [Function.update_self, reduceCtorEq, and_false, iff_false]
      intro listed
      have vacant := ((balanced.mem_free slot).mp listed).2
      simp [found] at vacant
    · rw [Function.update_of_ne same]
      exact balanced.mem_free freed
  size_eq := balanced.size_eq.trans (occupied_store found other).symm

theorem Balanced.modify (balanced : arena.Balanced) (found : arena.cell? slot = some cell)
    (change : Cell → Cell) :
    ∃ later, arena.modify slot change = .ok later ∧ later.Balanced ∧
      later.cell? = Function.update arena.cell? slot (some (change cell)) := by
  refine ⟨arena.store slot (some (change cell)), ?_, balanced.store found _,
    cell?_store (inside_of_cell? found) _⟩
  simp only [Arena.modify, cell_of_cell? found, bind, Except.bind, pure, Except.pure, Arena.store]

theorem Balanced.release (balanced : arena.Balanced) (found : arena.cell? slot = some cell) :
    (arena.release slot).Balanced where
  nodup := by
    refine List.nodup_cons.mpr ⟨?_, balanced.nodup⟩
    intro listed
    have vacant := ((balanced.mem_free slot).mp listed).2
    simp [found] at vacant
  mem_free freed := by
    have sameSize : (arena.release slot).slots.size = arena.slots.size :=
      Array.size_setIfInBounds
    have listed : freed ∈ (arena.release slot).free ↔ freed = slot ∨ freed ∈ arena.free :=
      List.mem_cons
    rw [cell?_release, sameSize, listed]
    by_cases same : freed = slot
    · subst freed
      simp [inside_of_cell? found]
    · simp only [same, false_or, Function.update_of_ne same]
      exact balanced.mem_free freed
  size_eq := by
    have fewer := occupied_release found
    have counted := balanced.size_eq
    change arena.size - 1 = _
    omega

theorem occupied_fill (inside : slot.number < arena.slots.size)
    (vacant : arena.cell? slot = none) (cell : Cell) :
    (arena.store slot (some cell)).occupied = arena.occupied + 1 := by
  have holds : arena.slots[slot.number] = none := by
    simpa [cell?, inside] using vacant
  simp only [occupied, store, Array.setIfInBounds, inside, dite_true, Array.countP_set, holds,
    Option.isSome_some, Option.isSome_none, if_true, Bool.false_eq_true, if_false]
  omega

theorem Balanced.reuse {free : List Slot} (balanced : arena.Balanced)
    (stacked : arena.free = slot :: free) (cell : Cell) :
    Balanced ⟨arena.slots.setIfInBounds slot.number (some cell), free, arena.size + 1⟩ := by
  have listed : slot ∈ arena.free := by
    simp [stacked]
  obtain ⟨inside, vacant⟩ := (balanced.mem_free slot).mp listed
  have nodup := balanced.nodup
  rw [stacked, List.nodup_cons] at nodup
  refine ⟨nodup.2, ?_, ?_⟩
  · intro freed
    have written := congrFun (cell?_store inside (some cell)) freed
    have sameSize : (arena.slots.setIfInBounds slot.number (some cell)).size = arena.slots.size :=
      Array.size_setIfInBounds
    change freed ∈ free ↔ _ ∧ (arena.store slot (some cell)).cell? freed = none
    rw [written, sameSize]
    by_cases same : freed = slot
    · subst freed
      simp [nodup.1]
    · have before := balanced.mem_free freed
      rw [stacked, List.mem_cons] at before
      simpa [same] using before
  · change arena.size + 1 = (arena.store slot (some cell)).occupied
    rw [occupied_fill inside vacant, balanced.size_eq]

theorem cell?_push (arena : Arena) (cell : Cell) :
    (Arena.mk (arena.slots.push (some cell)) [] (arena.size + 1)).cell? =
      Function.update arena.cell? ⟨arena.slots.size⟩ (some cell) := by
  funext other
  by_cases same : other = ⟨arena.slots.size⟩
  · subst other
    simp [cell?]
  · have different : other.number ≠ arena.slots.size := by
      intro equal
      exact same (congrArg Slot.mk equal)
    rw [Function.update_of_ne same]
    simp only [cell?, Array.getElem?_push, different, if_false]

theorem Balanced.push (balanced : arena.Balanced) (nothingFreed : arena.free = []) (cell : Cell) :
    Balanced ⟨arena.slots.push (some cell), [], arena.size + 1⟩ := by
  refine ⟨List.nodup_nil, ?_, ?_⟩
  · intro slot
    have full := balanced.mem_free slot
    simp only [nothingFreed, List.not_mem_nil, false_iff, not_and] at full ⊢
    intro inside
    rw [cell?_push]
    by_cases last : slot = ⟨arena.slots.size⟩
    · simp [last]
    · rw [Function.update_of_ne last]
      apply full
      have different : slot.number ≠ arena.slots.size := by
        intro equal
        exact last (congrArg Slot.mk equal)
      simp only [Array.size_push] at inside
      omega
  · have counted := balanced.size_eq
    simp only [occupied, Array.countP_push, Option.isSome_some, if_true] at counted ⊢
    omega

/-- Taking a slot for a cell: the slot was free before, it holds the cell afterwards, all other
slots hold what they held, and the books stay in balance. -/
theorem Balanced.take (balanced : arena.Balanced) (cell : Cell) :
    ∃ slot later, arena.take cell = (slot, later) ∧ later.Balanced ∧
      arena.cell? slot = none ∧
      later.cell? = Function.update arena.cell? slot (some cell) := by
  cases stacked : arena.free with
  | nil =>
      refine ⟨⟨arena.slots.size⟩, _, ?_, balanced.push stacked cell, ?_, cell?_push arena cell⟩
      · simp only [Arena.take, stacked]
      · simp [cell?]
  | cons slot free =>
      have listed : slot ∈ arena.free := by
        simp [stacked]
      obtain ⟨inside, vacant⟩ := (balanced.mem_free slot).mp listed
      refine ⟨slot, _, ?_, balanced.reuse stacked cell, vacant, cell?_store inside (some cell)⟩
      simp only [Arena.take, stacked]

/-- The numbers of the occupied slots. -/
def occupiedNumbers (arena : Arena) : Finset Nat :=
  (Finset.range arena.slots.size).filter fun number => arena.contains ⟨number⟩ = true

theorem mem_occupiedNumbers : slot.number ∈ arena.occupiedNumbers ↔ arena.contains slot = true := by
  rw [occupiedNumbers, Finset.mem_filter, Finset.mem_range]
  constructor
  · rintro ⟨-, occupied⟩
    exact occupied
  · intro occupied
    obtain ⟨cell, found⟩ := Option.isSome_iff_exists.mp occupied
    exact ⟨inside_of_cell? found, occupied⟩

theorem countP_isSome_eq_card (slots : List (Option Cell)) :
    slots.countP Option.isSome =
      ((Finset.range slots.length).filter fun number => slots[number]?.join.isSome).card := by
  induction slots using List.reverseRecOn with
  | nil => rfl
  | append_singleton slots last ih =>
      have same : ((Finset.range slots.length).filter fun number =>
          (slots ++ [last])[number]?.join.isSome) =
          (Finset.range slots.length).filter fun number => slots[number]?.join.isSome := by
        apply Finset.filter_congr
        intro number inside
        rw [List.getElem?_append_left (Finset.mem_range.mp inside)]
      rw [List.countP_append, List.length_append, List.length_singleton, Finset.range_add_one,
        Finset.filter_insert, same, ih]
      cases last <;> simp

theorem occupied_eq_card (arena : Arena) : arena.occupied = arena.occupiedNumbers.card := by
  rw [occupied, ← Array.countP_toList, countP_isSome_eq_card]
  simp only [Array.length_toList, Array.getElem?_toList]
  rfl

/-- Each slot is either occupied or freed. -/
theorem Balanced.slots_size (balanced : arena.Balanced) :
    arena.slots.size = arena.size + arena.free.length := by
  have freed : ((Finset.range arena.slots.size).filter fun number =>
      ¬ arena.contains ⟨number⟩ = true) = (arena.free.map Slot.number).toFinset := by
    ext number
    have listed : number ∈ arena.free.map Slot.number ↔ ⟨number⟩ ∈ arena.free :=
      List.mem_map_of_injective number_injective (a := ⟨number⟩)
    rw [Finset.mem_filter, Finset.mem_range, List.mem_toFinset, listed, balanced.mem_free]
    simp [contains]
  have nodup : (arena.free.map Slot.number).Nodup := balanced.nodup.map number_injective
  have split := Finset.card_filter_add_card_filter_not
    (s := Finset.range arena.slots.size) fun number => arena.contains ⟨number⟩ = true
  rw [freed, List.toFinset_card_of_nodup nodup, List.length_map, Finset.card_range] at split
  have counted : arena.size = arena.occupiedNumbers.card :=
    balanced.size_eq.trans (occupied_eq_card arena)
  rw [occupiedNumbers] at counted
  omega

end TableFeed.Arena
