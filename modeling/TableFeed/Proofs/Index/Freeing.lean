import TableFeed.Proofs.Index.Books
import TableFeed.Proofs.Index.Wiring

/-!
# Freeing along broken links

Where the links of an arena are broken, the slots behind a slot need not be a list: the links can
lead in a circle, to a freed slot, or into the list of another owner. Freeing from a slot on follows
them all the same. Each slot on the way is occupied when its turn comes and vacant from then on, so
that no slot is met twice. The main statement says for every arena that an owner can bring about and
for every slot: after at most as many slots as are occupied the way ends, either at a slot that is
stale or behind the last of the slots that the links lead to. In the second case exactly these slots
have been freed.
-/

namespace TableFeed.Arena

/-- Slots are freed one after another, from the given link on: each of them is occupied when its
turn comes, and the link that it holds leads to the next one. The last link leads on from the last
of them. -/
inductive Frees : Arena → Option Slot → List Slot → Arena → Option Slot → Prop
  | done (arena : Arena) (link : Option Slot) : Frees arena link [] arena link
  | step {arena later : Arena} {slot : Slot} {cell : Cell} {others : List Slot}
      {last : Option Slot} (found : arena.cell? slot = some cell)
      (further : Frees (arena.release slot) cell.next others later last) :
      Frees arena (some slot) (slot :: others) later last

/-- The freed slots are those to which the links lead from the given slot, each of them once. They
were occupied and are vacant now, the size has dropped by their number, and all other slots hold
what they held. -/
structure Emptied (arena : Arena) (head : Slot) (freed : List Slot) (later : Arena) : Prop where
  distinct : freed.Nodup
  reached : ∀ slot, slot ∈ freed ↔ arena.OnList head slot
  occupied : ∀ slot ∈ freed, arena.contains slot = true
  vacant : ∀ slot ∈ freed, later.contains slot = false
  others : ∀ slot, slot ∉ freed → later.cell? slot = arena.cell? slot
  slots : later.slots.size = arena.slots.size
  size : later.size + freed.length = arena.size

/-- How freeing from a slot on ends: behind the last slot, or at a slot that is stale because it was
vacant before or has just been freed. -/
inductive Ends (arena : Arena) (head : Slot) (freed : List Slot) (later : Arena) :
    Except StaleSlot (Nat × Arena) → Prop
  | emptied (whole : Frees arena (some head) freed later none)
      (emptied : arena.Emptied head freed later) :
      Ends arena head freed later (.ok (freed.length, later))
  | stale {slot : Slot} (part : Frees arena (some head) freed later (some slot))
      (vacant : later.contains slot = false)
      (broken : arena.contains slot = false ∨ slot ∈ freed) :
      Ends arena head freed later (.error ⟨slot⟩)

section Release

variable {arena : Arena} {slot other next : Slot} {cell : Cell}

theorem cell?_release_of_ne (different : other ≠ slot) :
    (arena.release slot).cell? other = arena.cell? other := by
  rw [cell?_release, Function.update_of_ne different]

/-- A slot that is occupied behind a freed one is another slot, and was occupied before. -/
theorem ne_of_contains_release (occupied : (arena.release slot).contains other = true) :
    other ≠ slot := by
  rintro rfl
  simp [contains, cell?_release] at occupied

theorem linksTo_release_iff (different : other ≠ slot) :
    (arena.release slot).LinksTo other next ↔ arena.LinksTo other next := by
  simp only [LinksTo, cell?_release_of_ne different]

theorem LinksTo.of_release (links : (arena.release slot).LinksTo other next) :
    arena.LinksTo other next := by
  obtain ⟨held, found, -⟩ := id links
  have occupied : (arena.release slot).contains other = true := by
    rw [contains, found, Option.isSome_some]
  exact (linksTo_release_iff (ne_of_contains_release occupied)).mp links

end Release

section Frees

variable {arena later : Arena} {head : Slot} {link last : Option Slot} {freed : List Slot}

theorem Frees.occupied (frees : Frees arena link freed later last) :
    ∀ slot ∈ freed, arena.contains slot = true := by
  induction frees with
  | done arena link => nofun
  | @step arena later slot cell others last found further ih =>
      refine List.forall_mem_cons.mpr ⟨?_, ?_⟩
      · rw [contains, found, Option.isSome_some]
      · intro other member
        have occupied := ih other member
        rwa [contains, cell?_release_of_ne (ne_of_contains_release occupied)] at occupied

/-- No slot is met twice, because it is vacant once its turn has come. -/
theorem Frees.nodup (frees : Frees arena link freed later last) : freed.Nodup := by
  induction frees with
  | done arena link => exact List.nodup_nil
  | @step arena later slot cell others last found further ih =>
      refine List.nodup_cons.mpr ⟨?_, ih⟩
      intro member
      exact ne_of_contains_release (further.occupied slot member) rfl

theorem Frees.cell?_eq (frees : Frees arena link freed later last) (slot : Slot) :
    later.cell? slot = if slot ∈ freed then none else arena.cell? slot := by
  induction frees with
  | done arena link => simp
  | @step arena later first cell others last found further ih =>
      rw [ih]
      by_cases same : slot = first
      · subst slot
        simp [cell?_release]
      · simp [same, cell?_release_of_ne same]

theorem Frees.slots_size (frees : Frees arena link freed later last) :
    later.slots.size = arena.slots.size := by
  induction frees with
  | done arena link => rfl
  | step found further ih => exact ih.trans Array.size_setIfInBounds

/-- Each freed slot was counted. -/
theorem Frees.size_add_length (frees : Frees arena link freed later last)
    (balanced : arena.Balanced) : later.size + freed.length = arena.size := by
  induction frees with
  | done arena link => rfl
  | @step arena later slot cell others last found further ih =>
      have counted := ih (balanced.release found)
      have positive := balanced.size_pos found
      have fewer : (arena.release slot).size = arena.size - 1 := rfl
      rw [List.length_cons]
      omega

/-- The links lead to each slot that is freed. -/
theorem Frees.reaches (frees : Frees arena link freed later last) :
    ∀ slot ∈ freed, ∃ first ∈ link, arena.OnList first slot := by
  induction frees with
  | done arena link => nofun
  | @step arena later slot cell others last found further ih =>
      refine List.forall_mem_cons.mpr ⟨⟨slot, rfl, .refl⟩, ?_⟩
      intro other member
      obtain ⟨next, leads, reaches⟩ := ih other member
      have links : arena.LinksTo slot next := ⟨cell, found, leads⟩
      have before := Relation.ReflTransGen.mono (fun _ _ => LinksTo.of_release) _ _ reaches
      exact ⟨slot, rfl, .head links before⟩

/-- Where the links end, they lead to no other slots than the freed ones. -/
theorem Frees.closed (frees : Frees arena link freed later none) :
    (∀ first ∈ link, first ∈ freed) ∧
      ∀ slot ∈ freed, ∀ next, arena.LinksTo slot next → next ∈ freed := by
  generalize ended : none = last at frees
  induction frees with
  | done arena link =>
      subst link
      exact ⟨nofun, nofun⟩
  | @step arena later slot cell others last found further ih =>
      obtain ⟨begins, inside⟩ := ih ended
      refine ⟨fun first same => Option.some.inj same ▸ List.mem_cons_self, ?_⟩
      intro other member next links
      apply List.mem_cons_of_mem
      by_cases same : other = slot
      · subst other
        obtain ⟨held, holds, leads⟩ := links
        obtain rfl : cell = held := Option.some.inj (found.symm.trans holds)
        exact begins next leads
      · exact inside other (List.mem_of_ne_of_mem same member) next
          ((linksTo_release_iff same).mpr links)

/-- Where the links end, the freed slots are those that they lead to. -/
theorem Frees.emptied (frees : Frees arena (some head) freed later none)
    (balanced : arena.Balanced) : arena.Emptied head freed later where
  distinct := frees.nodup
  reached slot := by
    obtain ⟨begins, inside⟩ := frees.closed
    constructor
    · intro member
      obtain ⟨first, same, reaches⟩ := frees.reaches slot member
      obtain rfl : head = first := Option.some.inj same
      exact reaches
    · intro reaches
      induction reaches with
      | refl => exact begins head rfl
      | tail _ links member => exact inside _ member _ links
  occupied := frees.occupied
  vacant slot member := by
    rw [contains, frees.cell?_eq, if_pos member, Option.isSome_none]
  others slot outside := by
    rw [frees.cell?_eq, if_neg outside]
  slots := frees.slots_size
  size := frees.size_add_length balanced

/-- A slot that is vacant in the end was vacant before or is one of the freed slots. -/
theorem Frees.broken (frees : Frees arena link freed later last) {slot : Slot}
    (vacant : later.contains slot = false) : arena.contains slot = false ∨ slot ∈ freed := by
  by_cases member : slot ∈ freed
  · exact Or.inr member
  · rw [contains, frees.cell?_eq, if_neg member] at vacant
    exact Or.inl vacant

/-- Freeing a list takes one occupied slot after another until there is none. -/
theorem exists_frees (arena : Arena) (head : Slot) :
    ∃ freed later,
      (Frees arena (some head) freed later none ∧
        arena.removeList head = .ok (freed.length, later)) ∨
      ∃ slot, Frees arena (some head) freed later (some slot) ∧
        later.contains slot = false ∧ arena.removeList head = .error ⟨slot⟩ := by
  fun_induction arena.removeList head with
  | case1 arena head vacant =>
      refine ⟨[], arena, Or.inr ⟨head, .done arena _, ?_, rfl⟩⟩
      rw [contains, vacant, Option.isSome_none]
  | case2 arena head cell found ended =>
      refine ⟨[head], arena.release head, Or.inl ⟨.step found ?_, rfl⟩⟩
      rw [ended]
      exact .done _ none
  | case3 arena head cell found next leads ih =>
      obtain ⟨freed, later, ⟨frees, removed⟩ | ⟨slot, frees, vacant, stale⟩⟩ := ih
      · refine ⟨head :: freed, later, Or.inl ⟨.step found (leads ▸ frees), ?_⟩⟩
        rw [removed]
        rfl
      · refine ⟨head :: freed, later, Or.inr ⟨slot, .step found (leads ▸ frees), vacant, ?_⟩⟩
        rw [stale]
        rfl

end Frees

/-- Whatever was done with a new arena, freeing from any slot on ends after at most as many slots as
are occupied, at a stale slot or with all slots freed that the links lead to. -/
theorem ends_of_acts (acts : List Act) (arena : Arena) (head : Slot)
    (reached : empty.afterAll acts = .ok arena) :
    ∃ freed later, freed.length ≤ arena.size ∧
      Ends arena head freed later (arena.removeList head) := by
  have balanced := ((balanced_empty.afterAll_spec acts).2).answer reached
  obtain ⟨freed, later, ⟨frees, removed⟩ | ⟨slot, frees, vacant, stale⟩⟩ := exists_frees arena head
  · refine ⟨freed, later, ?_, ?_⟩
    · exact frees.size_add_length balanced ▸ Nat.le_add_left _ _
    · rw [removed]
      exact .emptied frees (frees.emptied balanced)
  · refine ⟨freed, later, ?_, ?_⟩
    · exact frees.size_add_length balanced ▸ Nat.le_add_left _ _
    · rw [stale]
      exact .stale frees vacant (frees.broken vacant)

/-- The second row of a list is freed as a list of its own, and another row is put behind the first
one, whose link is broken. -/
def brokenActs : List Act :=
  [.call (.add none 1), .call (.add (some ⟨0⟩) 2), .call (.removeList ⟨1⟩),
    .call (.add (some ⟨0⟩) 3)]

/-- A slot that is linked to itself stops the freeing of its list. -/
theorem ends_ownNeighbour :
    empty.afterAll brokenActs =
      .ok ⟨#[some ⟨none, some ⟨1⟩, 1⟩, some ⟨some ⟨1⟩, some ⟨1⟩, 3⟩], [], 2⟩ ∧
    ∃ freed later, freed.length ≤ 2 ∧
      Ends ⟨#[some ⟨none, some ⟨1⟩, 1⟩, some ⟨some ⟨1⟩, some ⟨1⟩, 3⟩], [], 2⟩ ⟨0⟩ freed later
        (removeList ⟨#[some ⟨none, some ⟨1⟩, 1⟩, some ⟨some ⟨1⟩, some ⟨1⟩, 3⟩], [], 2⟩ ⟨0⟩) := by
  have reached : empty.afterAll brokenActs =
      .ok ⟨#[some ⟨none, some ⟨1⟩, 1⟩, some ⟨some ⟨1⟩, some ⟨1⟩, 3⟩], [], 2⟩ := by
    decide +kernel
  exact ⟨reached, ends_of_acts brokenActs _ _ reached⟩

end TableFeed.Arena
