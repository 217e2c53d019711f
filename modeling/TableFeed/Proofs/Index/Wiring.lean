import Mathlib.Data.Finset.Card
import Mathlib.Logic.Relation
import TableFeed.Proofs.Index.Listing

/-!
# How an index is wired

An index consists of three tables: the slot in which the list of each value begins, the value and
slot of each row, and the arena in which the slots are linked. The main statement says how these
tables fit together after any run of changes, that no further change meets a stale slot, and that
the list of a value begins in the same slot for as long as a row holds the value.
-/

namespace TableFeed

namespace Arena

variable {arena : Arena} {head slot : Slot}

/-- The cell in a slot names the slot behind it. -/
def LinksTo (arena : Arena) (slot next : Slot) : Prop :=
  ∃ cell, arena.cell? slot = some cell ∧ cell.next = some next

/-- A slot lies on the list that begins in another one. -/
def OnList (arena : Arena) (head slot : Slot) : Prop :=
  Relation.ReflTransGen arena.LinksTo head slot

open Chain

/-- The list that begins in the first slot of a linked chain has the slots of the chain. -/
theorem onList_iff_mem_slots {chain : Chain} {front : Option Slot}
    (linked : Linked arena.cell? front chain none) (begins : first none chain = some head) :
    arena.OnList head slot ↔ slot ∈ chain.slots := by
  constructor
  · intro reached
    induction reached with
    | refl => exact mem_slots_of_first begins
    | tail _ link ih =>
        obtain ⟨cell, found, leads⟩ := link
        obtain ⟨⟨_, row⟩, member, rfl⟩ := List.mem_map.mp ih
        obtain ⟨start, others, rfl⟩ := List.append_of_mem member
        obtain rfl := Option.some.inj (linked.cell.symm.trans found)
        simp [mem_slots_of_first leads]
  · intro member
    induction chain generalizing front head with
    | nil => nomatch begins
    | cons link others ih =>
        obtain ⟨here, row⟩ := link
        obtain rfl : here = head := Option.some.inj begins
        rcases List.mem_cons.mp member with same | later
        · subst slot
          exact .refl
        · cases leads : first none others with
          | none =>
              obtain rfl := eq_nil_of_first leads
              nomatch later
          | some next =>
              exact .head ⟨_, linked.1, leads⟩ (ih linked.2 leads later)

end Arena

namespace ValueIndex

open Chain

variable {K : Type} [DecidableEq K] [Hashable K]

/-- The slot of a row holds the row and lies on the list of its value, and each occupied slot
belongs to one row. A list begins in the slot known for the value if some row holds the value, and
different values have lists apart from each other. -/
structure Wired (index : ValueIndex K) : Prop where
  handles : ∀ (row : Row) (value : K) (slot : Slot), index.entries[row]? = some (value, slot) →
    ∃ head cell, index.heads[value]? = some head ∧ index.arena.OnList head slot ∧
      index.arena.cell? slot = some cell ∧ cell.row = row
  owners : ∀ slot, index.arena.contains slot = true →
    ∃! row : Row, ∃ value, index.entries[row]? = some (value, slot)
  headed : ∀ value, (∃ head, index.heads[value]? = some head) ↔
    ∃ (row : Row) (slot : Slot), index.entries[row]? = some (value, slot)
  starts : ∀ (value : K) (head : Slot), index.heads[value]? = some head →
    ∃ cell, index.arena.cell? head = some cell ∧ cell.previous = none
  apart : ∀ (first second : K) (firstHead secondHead : Slot), first ≠ second →
    index.heads[first]? = some firstHead → index.heads[second]? = some secondHead →
    firstHead ≠ secondHead ∧
      ∀ slot, index.arena.OnList firstHead slot → ¬ index.arena.OnList secondHead slot
  counted : index.arena.size = index.size

/-- As long as a row holds a value, the list of the value begins in the same slot. -/
def KeepsHeads (index next : ValueIndex K) : Prop :=
  ∀ value, (∃ row, index.valueOf? row = some value) → (∃ row, next.valueOf? row = some value) →
    next.heads[value]? = index.heads[value]?

/-- No slot is stale, whatever is changed, and however far the rows of a value are walked along. -/
structure Steady (index : ValueIndex K) : Prop where
  changes : ∀ change, ∃ answer next,
    index.perform change = .ok (answer, next) ∧ index.KeepsHeads next
  walks : ∀ value : K, ∃ rows : List Row, ∀ limit,
    index.arena.walk limit index.heads[value]? = .ok (rows.take limit)

/-- Make some changes, one after another. -/
def run (index : ValueIndex K) : List (Change K) → Except StaleSlot (ValueIndex K)
  | [] => .ok index
  | change :: later => do
      let (_, next) ← index.perform change
      next.run later

section Tables

variable {index : ValueIndex K} {chains : K → Chain} {value : K} {row : Row} {slot head : Slot}

theorem Tracks.cell_of_entry (tracks : index.Tracks chains)
    (found : index.entries[row]? = some (value, slot)) :
    ∃ cell, index.arena.cell? slot = some cell ∧ cell.row = row := by
  obtain ⟨start, others, place⟩ := List.append_of_mem ((tracks.locates row value slot).mp found)
  have linked := tracks.holds.linked value
  rw [place] at linked
  exact ⟨_, linked.cell, rfl⟩

theorem Tracks.entry_of_cell (tracks : index.Tracks chains) {cell : Cell}
    (found : index.arena.cell? slot = some cell) :
    ∃ value, index.entries[cell.row]? = some (value, slot) := by
  obtain ⟨value, member⟩ := tracks.holds.covered slot cell found
  obtain ⟨⟨_, row⟩, inside, rfl⟩ := List.mem_map.mp member
  have entry := (tracks.locates row value _).mpr inside
  obtain ⟨other, otherFound, rfl⟩ := tracks.cell_of_entry entry
  obtain rfl := Option.some.inj (found.symm.trans otherFound)
  exact ⟨value, entry⟩

theorem Tracks.onList_iff (tracks : index.Tracks chains)
    (begins : index.heads[value]? = some head) :
    index.arena.OnList head slot ↔ slot ∈ (chains value).slots := by
  rw [tracks.leads] at begins
  exact Arena.onList_iff_mem_slots (tracks.holds.linked value) begins

/-- Rows and occupied slots correspond to each other. -/
theorem Tracks.size_eq (tracks : index.Tracks chains) : index.arena.size = index.size := by
  let rowOf (number : Nat) : Row := ((index.arena.cell? ⟨number⟩).map Cell.row).getD 0
  have cells : ∀ number ∈ index.arena.occupiedNumbers, ∃ (cell : Cell) (value : K),
      rowOf number = cell.row ∧ index.entries[cell.row]? = some (value, ⟨number⟩) := by
    intro number member
    have occupied : index.arena.contains ⟨number⟩ = true := Arena.mem_occupiedNumbers.mp member
    obtain ⟨cell, found⟩ := Option.isSome_iff_exists.mp occupied
    obtain ⟨value, entry⟩ := tracks.entry_of_cell found
    exact ⟨cell, value, by simp [rowOf, found], entry⟩
  have rows : index.arena.occupiedNumbers.image rowOf = index.entries.keys.toFinset := by
    ext row
    rw [Finset.mem_image, List.mem_toFinset, Std.HashMap.mem_keys,
      Std.HashMap.mem_iff_isSome_getElem?, Option.isSome_iff_exists]
    constructor
    · rintro ⟨number, member, same⟩
      obtain ⟨cell, value, sameRow, entry⟩ := cells number member
      exact ⟨(value, ⟨number⟩), by rw [← same, sameRow, entry]⟩
    · rintro ⟨⟨value, slot⟩, entry⟩
      obtain ⟨cell, found, rfl⟩ := tracks.cell_of_entry entry
      refine ⟨slot.number, Arena.mem_occupiedNumbers.mpr ?_, by simp [rowOf, found]⟩
      exact Option.isSome_iff_exists.mpr ⟨cell, found⟩
  have injective : Set.InjOn rowOf index.arena.occupiedNumbers := by
    intro first firstMember second secondMember same
    obtain ⟨cell, value, firstRow, firstEntry⟩ := cells first firstMember
    obtain ⟨other, otherValue, secondRow, secondEntry⟩ := cells second secondMember
    rw [← firstRow, same, secondRow, secondEntry] at firstEntry
    cases firstEntry
    rfl
  have nodup : index.entries.keys.Nodup := Std.HashMap.nodup_keys
  calc
    index.arena.size = index.arena.occupiedNumbers.card := by
      rw [tracks.holds.balanced.size_eq, Arena.occupied_eq_card]
    _ = (index.arena.occupiedNumbers.image rowOf).card := by
      rw [Finset.card_image_of_injOn injective]
    _ = index.entries.keys.length := by rw [rows, List.toFinset_card_of_nodup nodup]
    _ = index.size := Std.HashMap.length_keys

/-- An index that tracks its chains is wired as it should be. -/
theorem Tracks.wired (tracks : index.Tracks chains) : index.Wired where
  handles row value slot entry := by
    have member := (tracks.locates row value slot).mp entry
    obtain ⟨cell, found, same⟩ := tracks.cell_of_entry entry
    cases begins : index.heads[value]? with
    | none =>
        rw [tracks.leads] at begins
        rw [eq_nil_of_first begins] at member
        nomatch member
    | some head =>
        refine ⟨head, cell, rfl, (tracks.onList_iff begins).mpr ?_, found, same⟩
        exact List.mem_map_of_mem member
  owners slot occupied := by
    obtain ⟨cell, found⟩ := Option.isSome_iff_exists.mp occupied
    refine ⟨cell.row, tracks.entry_of_cell found, ?_⟩
    rintro row ⟨value, entry⟩
    obtain ⟨other, otherFound, rfl⟩ := tracks.cell_of_entry entry
    rw [Option.some.inj (found.symm.trans otherFound)]
  headed value := by
    rw [tracks.leads]
    constructor
    · rintro ⟨head, begins⟩
      cases chain : chains value with
      | nil =>
          rw [chain] at begins
          nomatch begins
      | cons link others =>
          refine ⟨link.2, link.1, (tracks.locates _ _ _).mpr ?_⟩
          rw [chain]
          exact List.mem_cons_self
    · rintro ⟨row, slot, entry⟩
      have member := (tracks.locates row value slot).mp entry
      cases chain : chains value with
      | nil =>
          rw [chain] at member
          nomatch member
      | cons link others => exact ⟨link.1, rfl⟩
  starts value head begins := by
    rw [tracks.leads] at begins
    have linked := tracks.holds.linked value
    cases chain : chains value with
    | nil =>
        rw [chain] at begins
        nomatch begins
    | cons link others =>
        rw [chain] at begins linked
        obtain rfl : link.1 = head := Option.some.inj begins
        exact ⟨_, linked.1, rfl⟩
  apart first second firstHead secondHead different firstBegins secondBegins := by
    have disjoint : ∀ slot, index.arena.OnList firstHead slot →
        ¬ index.arena.OnList secondHead slot := by
      intro slot onFirst onSecond
      rw [tracks.onList_iff firstBegins] at onFirst
      rw [tracks.onList_iff secondBegins] at onSecond
      exact different (tracks.holds.disjoint first second slot onFirst onSecond)
    refine ⟨?_, disjoint⟩
    intro same
    exact disjoint firstHead .refl (same ▸ .refl)
  counted := tracks.size_eq

end Tables

section Heads

variable {index next : ValueIndex K} {value other : K} {row : Row} {head later : Slot}

theorem bind_eq_ok {α β : Type} {first : Except StaleSlot α} {second : α → Except StaleSlot β}
    {result : β} :
    (first >>= second) = .ok result ↔ ∃ found, first = .ok found ∧ second found = .ok result := by
  cases first <;> simp [bind, Except.bind]

/-- When a row leaves, its value loses its head or keeps it, and all other heads stay. -/
theorem heads_of_remove {held : Bool} (removed : index.remove row = .ok (held, next)) (value : K) :
    next.heads[value]? = index.heads[value]? ∨
      index.valueOf? row = some value ∧ next.heads[value]? = none := by
  cases found : index.entries[row]? with
  | none =>
      simp only [remove, found] at removed
      obtain ⟨-, rfl⟩ := Prod.mk.inj (Except.ok.inj removed)
      exact Or.inl rfl
  | some entry =>
      obtain ⟨current, slot⟩ := entry
      simp only [remove, found] at removed
      obtain ⟨moved, -, removed⟩ := bind_eq_ok.mp removed
      obtain ⟨⟨emptied, arena⟩, -, removed⟩ := bind_eq_ok.mp removed
      have heads : next.heads =
          if emptied then index.heads.erase current else index.heads := by
        cases moved <;> cases removed <;> rfl
      rw [heads]
      split
      · by_cases same : value = current
        · subst value
          exact Or.inr ⟨by simp [valueOf?, found], Std.HashMap.getElem?_erase_self⟩
        · exact Or.inl (getElem?_erase_of_ne _ same)
      · exact Or.inl rfl

/-- When a row enters, its value gets a head if it has none, and all other heads stay. -/
theorem heads_of_place (placed : index.place value row = .ok next) (other : K) :
    next.heads[other]? = index.heads[other]? ∨ other = value ∧ index.heads[other]? = none := by
  obtain ⟨⟨slot, arena⟩, -, placed⟩ := bind_eq_ok.mp placed
  cases placed
  cases begins : index.heads[value]? with
  | some head => exact Or.inl rfl
  | none =>
      by_cases same : other = value
      · subst other
        exact Or.inr ⟨rfl, begins⟩
      · exact Or.inl (getElem?_insert_of_ne _ same slot)

theorem heads_of_removeValue {count : Nat} (removed : index.removeValue value = .ok (count, next))
    (other : K) :
    next.heads[other]? = index.heads[other]? ∨ next.heads[other]? = none := by
  cases begins : index.heads[value]? with
  | none =>
      simp only [removeValue, begins] at removed
      cases removed
      exact Or.inl rfl
  | some head =>
      simp only [removeValue, begins] at removed
      obtain ⟨rows, -, removed⟩ := bind_eq_ok.mp removed
      obtain ⟨⟨count, arena⟩, -, removed⟩ := bind_eq_ok.mp removed
      cases removed
      by_cases same : other = value
      · subst other
        exact Or.inr Std.HashMap.getElem?_erase_self
      · exact Or.inl (getElem?_erase_of_ne _ same)

theorem heads_of_insert (inserted : index.insert value row = .ok next) (other : K) :
    next.heads[other]? = index.heads[other]? ∨ next.heads[other]? = none ∨
      index.heads[other]? = none := by
  cases found : index.valueOf? row with
  | none =>
      simp only [insert, found] at inserted
      exact (heads_of_place inserted other).imp_right fun entered => Or.inr entered.2
  | some current =>
      simp only [insert, found] at inserted
      split at inserted
      · cases inserted
        exact Or.inl rfl
      · rename_i different
        obtain ⟨⟨held, middle⟩, leaves, inserted⟩ := bind_eq_ok.mp inserted
        rcases heads_of_remove leaves other with sameFirst | ⟨isCurrent, nothing⟩
        · rw [← sameFirst]
          exact (heads_of_place inserted other).imp_right fun entered => Or.inr entered.2
        · -- The value that the row leaves is not the one that it enters.
          rcases heads_of_place inserted other with sameSecond | ⟨isValue, -⟩
          · exact Or.inr (Or.inl (sameSecond.trans nothing))
          · rw [found, isValue] at isCurrent
            exact (different (Option.some.inj isCurrent)).elim

/-- A change leaves the head of a value as it is, unless the value has none before or after. -/
theorem heads_of_perform {change : Change K} {answer : Answer}
    (performed : index.perform change = .ok (answer, next)) (value : K) :
    next.heads[value]? = index.heads[value]? ∨ next.heads[value]? = none ∨
      index.heads[value]? = none := by
  cases change with
  | insert entered row =>
      obtain ⟨result, inserted, performed⟩ := bind_eq_ok.mp performed
      cases performed
      exact heads_of_insert inserted value
  | remove row =>
      obtain ⟨⟨held, result⟩, removed, performed⟩ := bind_eq_ok.mp performed
      cases performed
      exact (heads_of_remove removed value).imp_right fun left => Or.inl left.2
  | removeValue emptied =>
      obtain ⟨⟨count, result⟩, removed, performed⟩ := bind_eq_ok.mp performed
      cases performed
      exact (heads_of_removeValue removed value).imp_right Or.inl
  | clear =>
      cases performed
      exact Or.inr (Or.inl Std.HashMap.getElem?_empty)

theorem Wired.head_of_valueOf? (wired : index.Wired) (holds : index.valueOf? row = some value) :
    ∃ head, index.heads[value]? = some head := by
  obtain ⟨⟨_, slot⟩, entry, rfl⟩ := Option.map_eq_some_iff.mp holds
  exact (wired.headed _).mpr ⟨row, slot, entry⟩

theorem Wired.keepsHeads (wired : index.Wired) (nextWired : next.Wired) {change : Change K}
    {answer : Answer} (performed : index.perform change = .ok (answer, next)) :
    index.KeepsHeads next := by
  rintro value ⟨row, holds⟩ ⟨laterRow, holdsLater⟩
  obtain ⟨head, before⟩ := wired.head_of_valueOf? holds
  obtain ⟨later, after⟩ := nextWired.head_of_valueOf? holdsLater
  rcases heads_of_perform performed value with same | nothing | nothing
  · exact same
  · rw [nothing] at after
    nomatch after
  · rw [nothing] at before
    nomatch before

theorem Tracks.steady {chains : K → Chain} (tracks : index.Tracks chains) : index.Steady where
  changes change := by
    obtain ⟨answer, next, nextChains, performed, -, nextTracks, -⟩ := tracks.step change
    exact ⟨answer, next, performed, tracks.wired.keepsHeads nextTracks.wired performed⟩
  walks value := by
    refine ⟨(chains value).rows, ?_⟩
    intro limit
    rw [tracks.leads]
    exact Arena.walk_of_linked (tracks.holds.linked value) limit

theorem Tracks.run {chains : K → Chain} (tracks : index.Tracks chains)
    (changes : List (Change K)) :
    ∃ last lastChains, index.run changes = .ok last ∧ last.Tracks lastChains := by
  induction changes generalizing index chains with
  | nil => exact ⟨index, chains, rfl, tracks⟩
  | cons change others ih =>
      obtain ⟨answer, next, nextChains, performed, -, nextTracks, -⟩ := tracks.step change
      obtain ⟨last, lastChains, ran, lastTracks⟩ := ih nextTracks
      exact ⟨last, lastChains, bind_eq_ok.mpr ⟨_, performed, ran⟩, lastTracks⟩

end Heads

/-- Whatever is changed about a new index, one change after another: its tables fit together, and no
slot is stale whatever comes next. -/
theorem wired_of_run (changes : List (Change K)) :
    ∃ index, (empty : ValueIndex K).run changes = .ok index ∧ index.Wired ∧ index.Steady := by
  obtain ⟨index, chains, ran, tracks⟩ := tracks_empty.run changes
  exact ⟨index, ran, tracks.wired, tracks.steady⟩

end ValueIndex

end TableFeed
