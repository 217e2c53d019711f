import Mathlib.Data.List.Nodup
import TableFeed.Proofs.Index.Cells

/-!
# Chains of linked cells

A chain is a list of slots with the row in each of them. It is linked when the cell in each slot
names the slots before and behind it in the chain. Chains can be cut in two at any place, and
whether a chain is linked depends on the cells in its own slots only. The main statements say how a
chain stays linked when a slot enters it, leaves it, or takes over the row of the slot behind it.
-/

namespace TableFeed

/-- The slots of a list in their order, each with its row. -/
abbrev Chain := List (Slot × Row)

namespace Chain

variable {cells later : Slot → Option Cell} {front behind : Option Slot} {chain : Chain}

/-- The slots of a chain. -/
def slots (chain : Chain) : List Slot :=
  chain.map Prod.fst

/-- The rows of a chain. -/
def rows (chain : Chain) : List Row :=
  chain.map Prod.snd

/-- The first slot of a chain, or the slot behind the chain if it is empty. -/
def first (behind : Option Slot) : Chain → Option Slot
  | [] => behind
  | (slot, _) :: _ => some slot

/-- The last slot of a chain, or the slot in front of the chain if it is empty. -/
def last (front : Option Slot) : Chain → Option Slot
  | [] => front
  | (slot, _) :: others => last (some slot) others

/-- Each slot of the chain holds its row and the slots before and behind it. The slots in front of
the chain and behind it are given. -/
def Linked (cells : Slot → Option Cell) : Option Slot → Chain → Option Slot → Prop
  | _, [], _ => True
  | front, (slot, row) :: others, behind =>
      cells slot = some ⟨front, first behind others, row⟩ ∧
        Linked cells (some slot) others behind

@[simp]
theorem slots_nil : slots [] = [] :=
  rfl

@[simp]
theorem slots_cons (slot : Slot) (row : Row) (others : Chain) :
    slots ((slot, row) :: others) = slot :: slots others :=
  rfl

@[simp]
theorem slots_append (start others : Chain) :
    slots (start ++ others) = slots start ++ slots others :=
  List.map_append

@[simp]
theorem rows_cons (slot : Slot) (row : Row) (others : Chain) :
    rows ((slot, row) :: others) = row :: rows others :=
  rfl

@[simp]
theorem rows_append (start others : Chain) : rows (start ++ others) = rows start ++ rows others :=
  List.map_append

@[simp]
theorem length_slots (chain : Chain) : (slots chain).length = chain.length :=
  List.length_map _

@[simp]
theorem length_rows (chain : Chain) : (rows chain).length = chain.length :=
  List.length_map _

theorem mem_rows {row : Row} : row ∈ rows chain ↔ ∃ slot, (slot, row) ∈ chain := by
  simp [rows]

@[simp]
theorem first_cons (behind : Option Slot) (slot : Slot) (row : Row) (others : Chain) :
    first behind ((slot, row) :: others) = some slot :=
  rfl

theorem eq_nil_of_first (nothing : first none chain = none) : chain = [] := by
  cases chain with
  | nil => rfl
  | cons link others => nomatch nothing

theorem first_append (behind : Option Slot) (start others : Chain) :
    first behind (start ++ others) = first (first behind others) start := by
  cases start <;> rfl

theorem last_append (front : Option Slot) (start others : Chain) :
    last front (start ++ others) = last (last front start) others := by
  induction start generalizing front with
  | nil => rfl
  | cons link start ih => exact ih (some link.1)

theorem eq_nil_of_last (nothing : last none chain = none) : chain = [] := by
  rcases List.eq_nil_or_concat chain with empty | ⟨start, ⟨slot, row⟩, rfl⟩
  · exact empty
  · rw [List.concat_eq_append, last_append] at nothing
    nomatch nothing

theorem linked_append {start others : Chain} :
    Linked cells front (start ++ others) behind ↔
      Linked cells front start (first behind others) ∧
        Linked cells (last front start) others behind := by
  induction start generalizing front with
  | nil => simp [Linked, last]
  | cons link start ih =>
      obtain ⟨slot, row⟩ := link
      simp only [List.cons_append, Linked, last, first_append, ih, and_assoc]

theorem Linked.congr (linked : Linked cells front chain behind)
    (same : ∀ slot ∈ slots chain, later slot = cells slot) :
    Linked later front chain behind := by
  induction chain generalizing front with
  | nil => trivial
  | cons link others ih =>
      obtain ⟨slot, row⟩ := link
      refine ⟨(same slot (by simp)).trans linked.1, ih linked.2 ?_⟩
      intro other member
      exact same other (by simp [member])

theorem Linked.cell {start others : Chain} {slot : Slot} {row : Row}
    (linked : Linked cells front (start ++ (slot, row) :: others) behind) :
    cells slot = some ⟨last front start, first behind others, row⟩ :=
  (linked_append.mp linked).2.1

theorem Linked.occupied (linked : Linked cells front chain behind) {slot : Slot}
    (member : slot ∈ slots chain) : ∃ cell, cells slot = some cell := by
  obtain ⟨⟨_, row⟩, inside, rfl⟩ := List.mem_map.mp member
  obtain ⟨start, others, rfl⟩ := List.append_of_mem inside
  exact ⟨_, linked.cell⟩

theorem mem_slots_of_first {slot : Slot} (leads : slot ∈ first none chain) :
    slot ∈ slots chain := by
  cases chain with
  | nil => nomatch leads
  | cons link others =>
      obtain rfl : link.1 = slot := Option.some.inj leads
      exact List.mem_cons_self

/-- A chain gets another slot in front of it when its first slot is told. -/
theorem Linked.changeFront {start : Option Slot} (linked : Linked cells front chain behind)
    (distinct : (slots chain).Nodup)
    (told : ∀ slot ∈ first none chain, ∀ cell ∈ cells slot,
      later slot = some { cell with previous := start })
    (same : ∀ slot ∈ slots chain, slot ∉ first none chain → later slot = cells slot) :
    Linked later start chain behind := by
  cases chain with
  | nil => trivial
  | cons link others =>
      obtain ⟨slot, row⟩ := link
      refine ⟨told slot rfl _ linked.1, linked.2.congr ?_⟩
      intro other member
      refine same other (by simp [member]) ?_
      rintro equal
      obtain rfl : slot = other := Option.some.inj equal
      exact (List.nodup_cons.mp distinct).1 member

/-- A part of a chain can be replaced by another one with the same first slot. The slot behind the
part has to be told, and all other cells of the chain have to stay the same. -/
theorem Linked.replacePart {start part other others : Chain}
    (linked : Linked cells front (start ++ part ++ others) none)
    (othersDistinct : (slots others).Nodup)
    (sameFirst : first (first none others) other = first (first none others) part)
    (otherLinked : Linked later (last front start) other (first none others))
    (told : ∀ slot ∈ first none others, ∀ cell ∈ cells slot,
      later slot = some { cell with previous := last (last front start) other })
    (sameStart : ∀ slot ∈ slots start, later slot = cells slot)
    (sameOthers : ∀ slot ∈ slots others, slot ∉ first none others → later slot = cells slot) :
    Linked later front (start ++ other ++ others) none := by
  rw [linked_append, linked_append] at linked ⊢
  obtain ⟨⟨startLinked, -⟩, othersLinked⟩ := linked
  refine ⟨⟨?_, otherLinked⟩, ?_⟩
  · rw [sameFirst]
    exact startLinked.congr sameStart
  · rw [last_append]
    exact othersLinked.changeFront othersDistinct told sameOthers

end Chain

end TableFeed
