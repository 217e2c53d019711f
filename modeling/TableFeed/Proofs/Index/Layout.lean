import Mathlib.Data.List.Perm.Subperm
import TableFeed.Proofs.Index.Chain
import TableFeed.Proofs.Index.Effect

/-!
# How chains lie in an arena

An arena holds a family of chains when each of them is linked in its cells, no slot occurs twice,
and every occupied slot belongs to one of the chains. Each operation of the arena replaces one chain
of the family by another one and leaves all others as they are. The main statements say which chain
it puts there, and that it never meets a stale slot.
-/

namespace TableFeed.Arena

open Chain

variable {ι : Type} {chains : ι → Chain} {index : ι}
variable {arena later : Arena} {front link : Option Slot} {start others : Chain}

/-- The chains lie in the arena side by side and fill it. -/
structure Holds (arena : Arena) (chains : ι → Chain) : Prop where
  balanced : arena.Balanced
  linked : ∀ index, Linked arena.cell? none (chains index) none
  distinct : ∀ index, (chains index).slots.Nodup
  disjoint : ∀ first second slot, slot ∈ (chains first).slots → slot ∈ (chains second).slots →
    first = second
  covered : ∀ slot cell, arena.cell? slot = some cell → ∃ index, slot ∈ (chains index).slots

theorem holds_empty : empty.Holds fun _ : ι => [] where
  balanced := balanced_empty
  linked _ := trivial
  distinct _ := List.nodup_nil
  disjoint _ _ _ member := nomatch member
  covered slot cell found := by simp [empty, cell?] at found

theorem Holds.not_mem_of_vacant (holds : arena.Holds chains) {slot : Slot}
    (vacant : arena.cell? slot = none) (index : ι) : slot ∉ (chains index).slots := by
  intro member
  obtain ⟨cell, found⟩ := (holds.linked index).occupied member
  simp [vacant] at found

theorem Holds.length_le (holds : arena.Holds chains) (index : ι) :
    (chains index).length ≤ arena.slots.size := by
  have nodup : ((chains index).slots.map Slot.number).Nodup :=
    (holds.distinct index).map number_injective
  have inside : (chains index).slots.map Slot.number ⊆ List.range arena.slots.size := by
    intro number listed
    obtain ⟨slot, member, rfl⟩ := List.mem_map.mp listed
    obtain ⟨cell, found⟩ := (holds.linked index).occupied member
    exact List.mem_range.mpr (inside_of_cell? found)
  calc
    (chains index).length = ((chains index).slots.map Slot.number).length := by simp
    _ ≤ (List.range arena.slots.size).length := (List.subperm_of_subset nodup inside).length_le
    _ = arena.slots.size := List.length_range

variable [DecidableEq ι]

/-- One chain of the family can be replaced by another one. The slots that it gains have to be free
before, and the slots that it loses have to be free afterwards. -/
theorem Holds.replace (holds : arena.Holds chains) (balanced : later.Balanced) {chain : Chain}
    (linked : Linked later.cell? none chain none) (distinct : chain.slots.Nodup)
    (gained : ∀ slot ∈ chain.slots, slot ∈ (chains index).slots ∨ arena.cell? slot = none)
    (lost : ∀ slot ∈ (chains index).slots, slot ∈ chain.slots ∨ later.cell? slot = none)
    (same : ∀ slot, slot ∉ (chains index).slots → slot ∉ chain.slots →
      later.cell? slot = arena.cell? slot) :
    later.Holds (Function.update chains index chain) := by
  have apart : ∀ other, other ≠ index → ∀ slot ∈ (chains other).slots, slot ∉ chain.slots := by
    intro other different slot member inside
    rcases gained slot inside with before | vacant
    · exact different (holds.disjoint other index slot member before)
    · exact holds.not_mem_of_vacant vacant other member
  have kept : ∀ other, other ≠ index → ∀ slot ∈ (chains other).slots,
      later.cell? slot = arena.cell? slot := by
    intro other different slot member
    apply same slot ?_ (apart other different slot member)
    intro before
    exact different (holds.disjoint other index slot member before)
  refine ⟨balanced, ?_, ?_, ?_, ?_⟩
  · apply (Function.forall_update_iff chains fun _ chain => Linked later.cell? none chain none).mpr
    refine ⟨linked, ?_⟩
    intro other different
    exact (holds.linked other).congr (kept other different)
  · apply (Function.forall_update_iff chains fun _ chain => chain.slots.Nodup).mpr
    exact ⟨distinct, fun other _ => holds.distinct other⟩
  · intro first second slot inFirst inSecond
    by_cases firstEqual : first = index <;> by_cases secondEqual : second = index
    · exact firstEqual.trans secondEqual.symm
    · subst first
      rw [Function.update_self] at inFirst
      rw [Function.update_of_ne secondEqual] at inSecond
      exact (apart second secondEqual slot inSecond inFirst).elim
    · subst second
      rw [Function.update_self] at inSecond
      rw [Function.update_of_ne firstEqual] at inFirst
      exact (apart first firstEqual slot inFirst inSecond).elim
    · rw [Function.update_of_ne firstEqual] at inFirst
      rw [Function.update_of_ne secondEqual] at inSecond
      exact holds.disjoint first second slot inFirst inSecond
  · intro slot cell found
    by_cases inside : slot ∈ chain.slots
    · exact ⟨index, by rwa [Function.update_self]⟩
    · have outside : slot ∉ (chains index).slots := by
        intro before
        rcases lost slot before with stays | vacant
        · exact inside stays
        · simp [vacant] at found
      rw [same slot outside inside] at found
      obtain ⟨other, member⟩ := holds.covered slot cell found
      have different : other ≠ index := by
        rintro rfl
        exact outside member
      exact ⟨other, by rwa [Function.update_of_ne different]⟩

/-- The slot behind a place in a linked chain is occupied, and it is none of the slots before. -/
theorem leadsOn_first {avoided : List Slot} (linked : Linked arena.cell? front others none)
    (outside : ∀ slot ∈ others.slots, slot ∉ avoided) :
    LeadsOn arena (first none others) avoided := by
  intro slot leads
  have member := mem_slots_of_first leads
  exact ⟨outside slot member, linked.occupied member⟩

theorem mem_slots_replacePart {first second : Chain} {slot : Slot} {otherwise : Prop}
    (inside : slot ∈ first.slots → slot ∈ second.slots ∨ otherwise)
    (member : slot ∈ (start ++ first ++ others).slots) :
    slot ∈ (start ++ second ++ others).slots ∨ otherwise := by
  simp only [slots_append, List.mem_append] at member ⊢
  rcases member with (inStart | inPart) | inOthers
  · exact Or.inl (Or.inl (Or.inl inStart))
  · exact (inside inPart).imp (fun inSecond => Or.inl (Or.inr inSecond)) id
  · exact Or.inl (Or.inr inOthers)

/-- Where a part of a chain is replaced by another one with the same first slot, only the cells of
both parts and the cell behind them may change. -/
theorem Holds.replacePart (holds : arena.Holds chains) {part : Chain}
    (place : chains index = start ++ part ++ others) (balanced : later.Balanced) (other : Chain)
    (sameFirst : first (first none others) other = first (first none others) part)
    (linked : Linked later.cell? (last none start) other (first none others))
    (distinct : other.slots.Nodup)
    (gained : ∀ slot ∈ other.slots, slot ∈ part.slots ∨ arena.cell? slot = none)
    (lost : ∀ slot ∈ part.slots, slot ∈ other.slots ∨ later.cell? slot = none)
    (told : Told arena later (first none others) (last (last none start) other))
    (same : SameOutside arena later (first none others) (part.slots ++ other.slots)) :
    later.Holds (Function.update chains index (start ++ other ++ others)) := by
  have before := holds.linked index
  have slotsDistinct := holds.distinct index
  rw [place] at before slotsDistinct
  simp only [slots_append, List.nodup_append, List.mem_append] at slotsDistinct
  obtain ⟨⟨startDistinct, -, startPart⟩, othersDistinct, apart⟩ := slotsDistinct
  -- The slots that the part gains were free, so they occur nowhere else in the chain.
  have vacantApart : ∀ slot ∈ other.slots, slot ∉ part.slots →
      slot ∉ start.slots ∧ slot ∉ others.slots := by
    intro slot member notPart
    have vacant := (gained slot member).resolve_left notPart
    have outside := holds.not_mem_of_vacant vacant index
    simp only [place, slots_append, List.mem_append, not_or] at outside
    exact ⟨outside.1.1, outside.2⟩
  have startOther : ∀ slot ∈ start.slots, slot ∉ part.slots ∧ slot ∉ other.slots := by
    intro slot member
    have notPart : slot ∉ part.slots := fun inside => startPart slot member slot inside rfl
    exact ⟨notPart, fun inside => (vacantApart slot inside notPart).1 member⟩
  have othersOther : ∀ slot ∈ others.slots, slot ∉ part.slots ∧ slot ∉ other.slots := by
    intro slot member
    have notPart : slot ∉ part.slots := fun inside => apart slot (Or.inr inside) slot member rfl
    exact ⟨notPart, fun inside => (vacantApart slot inside notPart).2 member⟩
  apply holds.replace balanced
  · apply before.replacePart othersDistinct sameFirst linked told
    · intro slot member
      apply same slot
      · simpa using startOther slot member
      · intro leads
        exact apart slot (Or.inl member) slot (mem_slots_of_first leads) rfl
    · intro slot member unlinked
      exact same slot (by simpa using othersOther slot member) unlinked
  · simp only [slots_append, List.nodup_append, List.mem_append]
    refine ⟨⟨startDistinct, distinct, ?_⟩, othersDistinct, ?_⟩
    · rintro slot member _ inside rfl
      exact (startOther slot member).2 inside
    · rintro slot (member | member) _ inside rfl
      · exact apart slot (Or.inl member) slot inside rfl
      · exact (othersOther slot inside).2 member
  · intro slot member
    rw [place]
    exact mem_slots_replacePart (gained slot) member
  · intro slot member
    rw [place] at member
    exact mem_slots_replacePart (lost slot) member
  · intro slot notBefore notAfter
    simp only [place, slots_append, List.mem_append, not_or] at notBefore notAfter
    apply same slot
    · simp [notBefore.1.2, notAfter.1.2]
    · intro leads
      exact notBefore.2 (mem_slots_of_first leads)

theorem Holds.add_alone (holds : arena.Holds chains) (row : Row) :
    ∃ slot later, arena.add none row = .ok (slot, later) ∧
      (∀ index, slot ∉ (chains index).slots) ∧
      ∀ index, chains index = [] → later.Holds (Function.update chains index [(slot, row)]) := by
  obtain ⟨slot, later, added, balanced, vacant, holdsRow, same⟩ :=
    Arena.add_alone holds.balanced row
  refine ⟨slot, later, added, holds.not_mem_of_vacant vacant, ?_⟩
  intro index unused
  apply holds.replace balanced
  · exact ⟨holdsRow, trivial⟩
  · exact List.nodup_singleton slot
  · rintro other member
    obtain rfl : other = slot := List.mem_singleton.mp member
    exact Or.inr vacant
  · simp [unused]
  · intro other _ outside
    exact same other outside nofun

theorem Holds.add_behind (holds : arena.Holds chains) {head : Slot} {headRow : Row}
    (place : chains index = start ++ [(head, headRow)] ++ others) (row : Row) :
    ∃ slot later, arena.add (some head) row = .ok (slot, later) ∧
      (∀ index, slot ∉ (chains index).slots) ∧
      later.Holds (Function.update chains index
        (start ++ [(head, headRow), (slot, row)] ++ others)) := by
  have linked := holds.linked index
  have distinct := holds.distinct index
  rw [place] at linked distinct
  have headNotOthers : ∀ slot ∈ others.slots, slot ∉ [head] := by
    intro slot member inside
    rw [slots_append, List.nodup_append] at distinct
    exact distinct.2.2 head (by simp) slot member (List.mem_singleton.mp inside).symm
  rw [linked_append, linked_append] at linked
  obtain ⟨⟨-, found, -⟩, othersLinked⟩ := linked
  obtain ⟨slot, later, added, balanced, vacant, headCell, slotCell, told, same⟩ :=
    Arena.add_behind holds.balanced found (leadsOn_first othersLinked headNotOthers) row
  have fresh := holds.not_mem_of_vacant vacant
  refine ⟨slot, later, added, fresh, ?_⟩
  have different : head ≠ slot := by
    rintro rfl
    simp [found] at vacant
  apply holds.replacePart place balanced [(head, headRow), (slot, row)] rfl
    ⟨headCell, slotCell, trivial⟩
  · simpa using different
  · simp [vacant]
  · simp
  · exact told
  · intro other outside unlinked
    exact same other (by simpa using outside) unlinked

theorem Holds.remove_later (holds : arena.Holds chains) {previous slot : Slot} {frontRow row : Row}
    (place : chains index = start ++ [(previous, frontRow), (slot, row)] ++ others) :
    ∃ later, arena.remove slot = .ok (false, later) ∧
      later.Holds (Function.update chains index (start ++ [(previous, frontRow)] ++ others)) := by
  have linked := holds.linked index
  have distinct := holds.distinct index
  rw [place] at linked distinct
  rw [slots_append, slots_append, List.nodup_append, List.nodup_append] at distinct
  have different : previous ≠ slot := by
    simpa using distinct.1.2.1
  have partNotOthers : ∀ other ∈ others.slots, other ∉ [previous, slot] := by
    intro other member inside
    exact distinct.2.2 other (List.mem_append_right _ inside) other member rfl
  rw [linked_append, linked_append] at linked
  obtain ⟨⟨-, frontFound, found, -⟩, othersLinked⟩ := linked
  obtain ⟨later, removed, balanced, frontCell, vacant, told, same⟩ :=
    Arena.remove_later holds.balanced found frontFound different
      (leadsOn_first othersLinked partNotOthers)
  refine ⟨later, removed, ?_⟩
  apply holds.replacePart place balanced [(previous, frontRow)] rfl ⟨frontCell, trivial⟩
  · exact List.nodup_singleton previous
  · simp
  · simp [vacant]
  · exact told
  · intro other outside unlinked
    exact same other (fun inside => outside (List.mem_append_left _ inside)) unlinked

/-- When the first row of a chain leaves, the second row moves into its slot. -/
theorem Holds.remove_first (holds : arena.Holds chains) {slot next : Slot} {row second : Row}
    (place : chains index = (slot, row) :: (next, second) :: others) :
    ∃ later, arena.remove slot = .ok (false, later) ∧
      later.Holds (Function.update chains index ((slot, second) :: others)) := by
  have linked := holds.linked index
  have distinct := holds.distinct index
  rw [place] at linked distinct
  obtain ⟨found, nextFound, othersLinked⟩ := linked
  simp only [slots_cons, List.nodup_cons, List.mem_cons, not_or] at distinct
  obtain ⟨⟨different, slotNotOthers⟩, nextNotOthers, -⟩ := distinct
  have partNotOthers : ∀ other ∈ others.slots, other ∉ [slot, next] := by
    rintro other member inside
    simp only [List.mem_cons, List.not_mem_nil, or_false] at inside
    rcases inside with rfl | rfl
    · exact slotNotOthers member
    · exact nextNotOthers member
  obtain ⟨later, removed, balanced, slotCell, vacant, told, same⟩ :=
    Arena.remove_first holds.balanced found nextFound different
      (leadsOn_first othersLinked partNotOthers)
  refine ⟨later, removed, ?_⟩
  have placePart : chains index = [] ++ [(slot, row), (next, second)] ++ others := place
  apply holds.replacePart placePart balanced [(slot, second)] rfl ⟨slotCell, trivial⟩
  · exact List.nodup_singleton slot
  · simp
  · simp [vacant]
  · exact told
  · intro other outside unlinked
    exact same other (fun inside => outside (List.mem_append_left _ inside)) unlinked

theorem Holds.remove_only (holds : arena.Holds chains) {slot : Slot} {row : Row}
    (place : chains index = [(slot, row)]) :
    ∃ later, arena.remove slot = .ok (true, later) ∧
      later.Holds (Function.update chains index []) := by
  have linked := holds.linked index
  rw [place] at linked
  obtain ⟨later, removed, balanced, vacant, same⟩ := Arena.remove_only holds.balanced linked.1
  refine ⟨later, removed, ?_⟩
  apply holds.replace balanced
  · trivial
  · exact List.nodup_nil
  · simp
  · simp [place, vacant]
  · intro other outside _
    rw [place] at outside
    exact same other outside nofun

theorem removeList_of_cell? {head : Slot} {cell : Cell} (found : arena.cell? head = some cell) :
    arena.removeList head =
      match cell.next with
      | none => .ok (1, arena.release head)
      | some next => do
          let (count, rest) ← (arena.release head).removeList next
          return (count + 1, rest) := by
  rw [removeList]
  split
  · rename_i vacant
    simp [found] at vacant
  · rename_i held holds
    obtain rfl : cell = held := Option.some.inj (found.symm.trans holds)
    rfl

/-- Freeing the slots from the first one of a linked chain on frees exactly the slots of the chain,
and counts them. -/
theorem removeList_of_linked {chain : Chain} {head : Slot} (balanced : arena.Balanced)
    (linked : Linked arena.cell? front chain none) (distinct : chain.slots.Nodup)
    (begins : first none chain = some head) :
    ∃ later, arena.removeList head = .ok (chain.length, later) ∧ later.Balanced ∧
      (∀ slot ∈ chain.slots, later.cell? slot = none) ∧
      ∀ slot, slot ∉ chain.slots → later.cell? slot = arena.cell? slot := by
  induction chain generalizing arena front head with
  | nil => nomatch begins
  | cons link others ih =>
      obtain ⟨slot, row⟩ := link
      obtain rfl : slot = head := Option.some.inj begins
      rw [slots_cons, List.nodup_cons] at distinct
      have freed := balanced.release linked.1
      have cells := cell?_release arena slot
      rw [removeList_of_cell? linked.1]
      cases leads : first none others with
      | none =>
          obtain rfl := eq_nil_of_first leads
          refine ⟨arena.release slot, rfl, freed, ?_, ?_⟩
          · simp [cells]
          · intro other outside
            rw [cells, Function.update_of_ne (List.ne_of_not_mem_cons outside)]
      | some next =>
          have othersLinked : Linked (arena.release slot).cell? (some slot) others none := by
            apply linked.2.congr
            rintro other member
            rw [cells, Function.update_of_ne]
            rintro rfl
            exact distinct.1 member
          obtain ⟨later, removed, laterBalanced, vacant, same⟩ :=
            ih freed othersLinked distinct.2 leads
          refine ⟨later, ?_, laterBalanced, ?_, ?_⟩
          · simp only [removed, bind, Except.bind, pure, Except.pure, List.length_cons]
          · intro other member
            rcases List.mem_cons.mp member with rfl | inside
            · rw [same other distinct.1, cells, Function.update_self]
            · exact vacant other inside
          · intro other outside
            rw [slots_cons, List.mem_cons, not_or] at outside
            rw [same other outside.2, cells, Function.update_of_ne outside.1]

theorem Holds.removeList (holds : arena.Holds chains) {head : Slot}
    (begins : first none (chains index) = some head) :
    ∃ later, arena.removeList head = .ok ((chains index).length, later) ∧
      later.Holds (Function.update chains index []) := by
  obtain ⟨later, removed, balanced, vacant, same⟩ :=
    removeList_of_linked holds.balanced (holds.linked index) (holds.distinct index) begins
  refine ⟨later, removed, ?_⟩
  apply holds.replace balanced
  · trivial
  · exact List.nodup_nil
  · simp
  · intro slot member
    exact Or.inr (vacant slot member)
  · intro slot outside _
    exact same slot outside

theorem walk_of_linked {chain : Chain} (linked : Linked arena.cell? front chain none)
    (limit : Nat) : arena.walk limit (first none chain) = .ok (chain.rows.take limit) := by
  induction chain generalizing front limit with
  | nil => cases limit <;> simp [walk, first, rows]
  | cons link others ih =>
      obtain ⟨slot, row⟩ := link
      cases limit with
      | zero => simp [walk]
      | succ limit =>
          rw [first_cons, rows_cons, List.take_succ_cons]
          simp only [walk, cell_of_cell? linked.1, ih linked.2 limit, bind, Except.bind, pure,
            Except.pure]

end TableFeed.Arena
