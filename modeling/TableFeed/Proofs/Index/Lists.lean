import TableFeed.Proofs.Index.Layout

/-!
# An arena as a family of lists

To its owners an arena is a family of lists, each of them known by its first slot. The owners are
expected to name occupied slots only, and to free a whole list from its first slot on. The main
statement says that a run of such calls never meets a stale slot, that every call changes one list
in the way described here and leaves the others alone, and that the arena shows exactly these lists
after each call.
-/

namespace TableFeed.Arena

open Chain

/-- What can be asked of an arena. -/
inductive Call
  | add (head : Option Slot) (row : Row)
  | remove (slot : Slot)
  | removeList (head : Slot)
  | clear
  deriving DecidableEq

/-- What an arena answers. -/
inductive Answer
  | taken (slot : Slot)
  | emptied (only : Bool)
  | freed (count : Nat)
  | done
  deriving DecidableEq

/-- Do what a call asks for. -/
def perform (arena : Arena) : Call → Except StaleSlot (Answer × Arena)
  | .add head row => do
      let (slot, later) ← arena.add head row
      return (.taken slot, later)
  | .remove slot => do
      let (only, later) ← arena.remove slot
      return (.emptied only, later)
  | .removeList head => do
      let (count, later) ← arena.removeList head
      return (.freed count, later)
  | .clear => return (.done, empty)

/-- A call names occupied slots only, and frees a list from its first slot on. -/
def Call.Proper (arena : Arena) : Call → Prop
  | .add head _ => ∀ slot ∈ head, arena.contains slot = true
  | .remove slot => arena.contains slot = true
  | .removeList head => ∃ cell, arena.cell? head = some cell ∧ cell.previous = none
  | .clear => True

/-- Each call of a run is proper at its time. -/
def ProperRun (arena : Arena) : List Call → Prop
  | [] => True
  | call :: later => call.Proper arena ∧
      ∀ answer next, arena.perform call = .ok (answer, next) → next.ProperRun later

/-- The list that begins at each slot. No list begins where the chain is empty. -/
abbrev Lists := Slot → Chain

/-- How a call changes the lists, and what is answered to it. -/
inductive Lists.Step (lists : Lists) : Call → Answer → Lists → Prop
  | addAlone {slot : Slot} (row : Row) (fresh : ∀ head, slot ∉ (lists head).slots) :
      lists.Step (.add none row) (.taken slot) (Function.update lists slot [(slot, row)])
  | addBehind {head slot other : Slot} {otherRow : Row} {start others : Chain} (row : Row)
      (fresh : ∀ head, slot ∉ (lists head).slots)
      (place : lists head = start ++ (other, otherRow) :: others) :
      lists.Step (.add (some other) row) (.taken slot)
        (Function.update lists head (start ++ (other, otherRow) :: (slot, row) :: others))
  | removeLater {head slot : Slot} {row : Row} {start others : Chain} (later : start ≠ [])
      (place : lists head = start ++ (slot, row) :: others) :
      lists.Step (.remove slot) (.emptied false) (Function.update lists head (start ++ others))
  | removeFirst {head next : Slot} {row second : Row} {others : Chain}
      (place : lists head = (head, row) :: (next, second) :: others) :
      lists.Step (.remove head) (.emptied false)
        (Function.update lists head ((head, second) :: others))
  | removeOnly {head : Slot} {row : Row} (place : lists head = [(head, row)]) :
      lists.Step (.remove head) (.emptied true) (Function.update lists head [])
  | removeList {head : Slot} (occupied : lists head ≠ []) :
      lists.Step (.removeList head) (.freed (lists head).length) (Function.update lists head [])
  | clear : lists.Step .clear .done fun _ => []

/-- The occupied slots of the arena are those of the lists, and its size counts them. Each of them
holds its row and its neighbours, and walking from the first slot of a list yields the rows of the
list and ends. -/
structure Shows (arena : Arena) (lists : Lists) : Prop where
  begins : ∀ head, lists head ≠ [] → first none (lists head) = some head
  distinct : ∀ head, (lists head).slots.Nodup
  disjoint : ∀ first second slot, slot ∈ (lists first).slots → slot ∈ (lists second).slots →
    first = second
  occupied : ∀ slot, arena.contains slot = true ↔ ∃ head, slot ∈ (lists head).slots
  counted : arena.size = arena.occupied
  neighbours : ∀ head start slot row others, lists head = start ++ (slot, row) :: others →
    arena.cell? slot = some ⟨last none start, first none others, row⟩
  walks : ∀ head, lists head ≠ [] → ∀ limit,
    arena.walk limit (some head) = .ok ((lists head).rows.take limit)

/-- The calls can be performed one after another, each of them changes the lists as it should, and
the arena shows the lists before, between and after the calls. -/
def Follows (arena : Arena) (lists : Lists) : List Call → Prop
  | [] => arena.Shows lists
  | call :: later => arena.Shows lists ∧
      ∃ answer next nextLists, arena.perform call = .ok (answer, next) ∧
        lists.Step call answer nextLists ∧ next.Follows nextLists later

section Steps

variable {arena : Arena} {lists : Lists}

/-- Every list begins with the slot by which it is known. -/
def Lists.Rooted (lists : Lists) : Prop :=
  ∀ head, lists head ≠ [] → first none (lists head) = some head

theorem Lists.Rooted.update (rooted : lists.Rooted) {head : Slot} {chain : Chain}
    (begins : chain ≠ [] → first none chain = some head) :
    Lists.Rooted (Function.update lists head chain) := by
  apply (Function.forall_update_iff lists fun head chain =>
    chain ≠ [] → first none chain = some head).mpr
  exact ⟨begins, fun other _ => rooted other⟩

theorem Lists.Rooted.first_of_place (rooted : lists.Rooted) {head slot : Slot} {row : Row}
    {start others : Chain} (place : lists head = start ++ (slot, row) :: others) :
    first (some slot) start = some head := by
  have begins := rooted head (by simp [place])
  rwa [place, first_append] at begins

theorem Lists.Rooted.eq_nil_of_fresh (rooted : lists.Rooted) {slot : Slot}
    (fresh : ∀ head, slot ∉ (lists head).slots) : lists slot = [] := by
  by_contra begun
  exact fresh slot (mem_slots_of_first (rooted slot begun))

theorem Holds.shows (holds : arena.Holds lists) (rooted : lists.Rooted) : arena.Shows lists where
  begins := rooted
  distinct := holds.distinct
  disjoint := holds.disjoint
  occupied slot := by
    constructor
    · intro contained
      obtain ⟨cell, found⟩ := Option.isSome_iff_exists.mp contained
      exact holds.covered slot cell found
    · rintro ⟨head, member⟩
      obtain ⟨cell, found⟩ := (holds.linked head).occupied member
      exact Option.isSome_iff_exists.mpr ⟨cell, found⟩
  counted := holds.balanced.size_eq
  neighbours head start slot row others place := by
    have linked := holds.linked head
    rw [place] at linked
    exact linked.cell
  walks head occupied limit := by
    rw [← rooted head occupied]
    exact walk_of_linked (holds.linked head) limit

theorem Holds.place_of_contains (holds : arena.Holds lists) {slot : Slot}
    (contained : arena.contains slot = true) :
    ∃ head start row others, lists head = start ++ (slot, row) :: others := by
  obtain ⟨cell, found⟩ := Option.isSome_iff_exists.mp contained
  obtain ⟨head, member⟩ := holds.covered slot cell found
  obtain ⟨⟨_, row⟩, inside, rfl⟩ := List.mem_map.mp member
  obtain ⟨start, others, place⟩ := List.append_of_mem inside
  exact ⟨head, start, row, others, place⟩

theorem step_add (holds : arena.Holds lists) (rooted : lists.Rooted) (head : Option Slot)
    (row : Row) (proper : ∀ slot ∈ head, arena.contains slot = true) :
    ∃ answer next nextLists, arena.perform (.add head row) = .ok (answer, next) ∧
      lists.Step (.add head row) answer nextLists ∧ next.Holds nextLists ∧ nextLists.Rooted := by
  cases head with
  | none =>
      obtain ⟨slot, next, added, fresh, nextHolds⟩ := holds.add_alone row
      refine ⟨.taken slot, next, _, ?_, .addAlone row fresh,
        nextHolds slot (rooted.eq_nil_of_fresh fresh), rooted.update fun _ => rfl⟩
      simp only [perform, added]
      rfl
  | some other =>
      obtain ⟨head, start, otherRow, others, place⟩ := holds.place_of_contains (proper other rfl)
      have placePart : lists head = start ++ [(other, otherRow)] ++ others := by
        simpa using place
      obtain ⟨slot, next, added, fresh, nextHolds⟩ := holds.add_behind placePart row
      refine ⟨.taken slot, next, _, ?_, .addBehind row fresh place, ?_, ?_⟩
      · simp only [perform, added]
        rfl
      · simpa using nextHolds
      · apply rooted.update
        intro _
        rw [first_append]
        exact rooted.first_of_place place

theorem step_remove (holds : arena.Holds lists) (rooted : lists.Rooted) (slot : Slot)
    (proper : arena.contains slot = true) :
    ∃ answer next nextLists, arena.perform (.remove slot) = .ok (answer, next) ∧
      lists.Step (.remove slot) answer nextLists ∧ next.Holds nextLists ∧ nextLists.Rooted := by
  obtain ⟨head, start, row, others, place⟩ := holds.place_of_contains proper
  have begins := rooted.first_of_place place
  rcases List.eq_nil_or_concat start with rfl | ⟨start, ⟨previous, frontRow⟩, rfl⟩
  · -- The slot is the first one of its list, and so the list is known by it.
    obtain rfl : slot = head := Option.some.inj begins
    cases others with
    | nil =>
        obtain ⟨next, removed, nextHolds⟩ := holds.remove_only place
        refine ⟨.emptied true, next, _, ?_, .removeOnly place, nextHolds, rooted.update (by simp)⟩
        simp only [perform, removed]
        rfl
    | cons second others =>
        obtain ⟨next, removed, nextHolds⟩ := holds.remove_first place
        refine ⟨.emptied false, next, _, ?_, .removeFirst place, nextHolds,
          rooted.update fun _ => rfl⟩
        simp only [perform, removed]
        rfl
  · rw [List.concat_eq_append] at place begins
    have placePart : lists head = start ++ [(previous, frontRow), (slot, row)] ++ others := by
      simpa using place
    obtain ⟨next, removed, nextHolds⟩ := holds.remove_later placePart
    refine ⟨.emptied false, next, _, ?_, .removeLater (by simp) place, nextHolds, ?_⟩
    · simp only [perform, removed]
      rfl
    · apply rooted.update
      intro _
      rw [first_append] at begins ⊢
      rw [first_append]
      exact begins

theorem step_removeList (holds : arena.Holds lists) (rooted : lists.Rooted) {head : Slot}
    {cell : Cell} (found : arena.cell? head = some cell) (firstSlot : cell.previous = none) :
    ∃ answer next nextLists, arena.perform (.removeList head) = .ok (answer, next) ∧
      lists.Step (.removeList head) answer nextLists ∧ next.Holds nextLists ∧
      nextLists.Rooted := by
  obtain ⟨known, start, row, others, place⟩ :=
    holds.place_of_contains (Option.isSome_iff_exists.mpr ⟨cell, found⟩)
  have linked := holds.linked known
  rw [place] at linked
  obtain rfl : _ = cell := Option.some.inj (linked.cell.symm.trans found)
  obtain rfl := eq_nil_of_last firstSlot
  obtain rfl : head = known := Option.some.inj (rooted.first_of_place place)
  have occupied : lists head ≠ [] := by
    simp [place]
  obtain ⟨next, removed, nextHolds⟩ := holds.removeList (rooted head occupied)
  refine ⟨.freed (lists head).length, next, _, ?_, .removeList occupied, nextHolds,
    rooted.update (by simp)⟩
  simp only [perform, removed]
  rfl

/-- A proper call can be performed, and it changes the lists as it should. -/
theorem step_of_proper (holds : arena.Holds lists) (rooted : lists.Rooted) {call : Call}
    (proper : call.Proper arena) :
    ∃ answer next nextLists, arena.perform call = .ok (answer, next) ∧
      lists.Step call answer nextLists ∧ next.Holds nextLists ∧ nextLists.Rooted := by
  cases call with
  | add head row => exact step_add holds rooted head row proper
  | remove slot => exact step_remove holds rooted slot proper
  | removeList head =>
      obtain ⟨cell, found, firstSlot⟩ := proper
      exact step_removeList holds rooted found firstSlot
  | clear =>
      exact ⟨.done, empty, _, rfl, .clear, holds_empty, fun _ occupied => (occupied rfl).elim⟩

theorem follows_of_holds (holds : arena.Holds lists) (rooted : lists.Rooted) {calls : List Call}
    (proper : arena.ProperRun calls) : arena.Follows lists calls := by
  induction calls generalizing arena lists with
  | nil => exact holds.shows rooted
  | cons call later ih =>
      obtain ⟨answer, next, nextLists, performed, step, nextHolds, nextRooted⟩ :=
        step_of_proper holds rooted proper.1
      exact ⟨holds.shows rooted, answer, next, nextLists, performed, step,
        ih nextHolds nextRooted (proper.2 answer next performed)⟩

end Steps

theorem properRun_cons {arena next : Arena} {call : Call} {later : List Call} {answer : Answer}
    (proper : call.Proper arena) (performed : arena.perform call = .ok (answer, next))
    (rest : next.ProperRun later) : arena.ProperRun (call :: later) := by
  refine ⟨proper, ?_⟩
  rintro _ _ same
  rw [performed] at same
  cases same
  exact rest

/-- A run of proper calls on a new arena never meets a stale slot, and every call does to the lists
what it should. -/
theorem follows_of_properRun (calls : List Call) (proper : empty.ProperRun calls) :
    empty.Follows (fun _ => []) calls :=
  follows_of_holds holds_empty (fun _ occupied => (occupied rfl).elim) proper

/-- A run in which a first row leaves, its successor's slot is taken again, a row in the middle
leaves, and what is left is freed. -/
def slidingRun : List Call :=
  [.add none 7, .clear, .add none 1, .add (some ⟨0⟩) 2, .add (some ⟨0⟩) 3, .remove ⟨0⟩,
    .add (some ⟨1⟩) 4, .remove ⟨1⟩, .removeList ⟨0⟩]

theorem properRun_slidingRun : empty.ProperRun slidingRun := by
  refine properRun_cons nofun rfl ?_
  refine properRun_cons trivial rfl ?_
  refine properRun_cons nofun rfl ?_
  refine properRun_cons (by rintro _ ⟨⟩; decide) rfl ?_
  refine properRun_cons (by rintro _ ⟨⟩; decide) rfl ?_
  refine properRun_cons (show contains _ _ = true by decide) rfl ?_
  refine properRun_cons (by rintro _ ⟨⟩; decide) rfl ?_
  refine properRun_cons (show contains _ _ = true by decide) rfl ?_
  exact ⟨⟨_, rfl, rfl⟩, fun _ _ _ => trivial⟩

theorem follows_slidingRun :
    empty.ProperRun slidingRun ∧ empty.Follows (fun _ => []) slidingRun :=
  ⟨properRun_slidingRun, follows_of_properRun slidingRun properRun_slidingRun⟩

end TableFeed.Arena
