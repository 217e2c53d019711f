import Mathlib.Algebra.BigOperators.Group.Finset.Basic
import TableFeed.Proofs.Index.Tracks

/-!
# An index as rows listed by value

To its owner an index is a listing: the rows of each value, in an order. The main statement says
that no change of an index ever meets a stale slot, that every change alters the listing in the way
described here, and that all questions to the index are answered from this listing before and after
each change.
-/

namespace TableFeed.ValueIndex

open Chain

variable {K : Type} [DecidableEq K]

/-- What can be changed about an index. -/
inductive Change (K : Type)
  | insert (value : K) (row : Row)
  | remove (row : Row)
  | removeValue (value : K)
  | clear
  deriving DecidableEq

/-- What an index answers to a change. -/
inductive Answer
  | done
  | removed (held : Bool)
  | emptied (count : Nat)
  deriving DecidableEq

/-- Make a change. -/
def perform [Hashable K] (index : ValueIndex K) :
    Change K → Except StaleSlot (Answer × ValueIndex K)
  | .insert value row => do
      let later ← index.insert value row
      return (.done, later)
  | .remove row => do
      let (held, later) ← index.remove row
      return (.removed held, later)
  | .removeValue value => do
      let (count, later) ← index.removeValue value
      return (.emptied count, later)
  | .clear => return (.done, empty)

/-- The rows of each value, in their order. -/
abbrev Listing (K : Type) := K → List Row

/-- Erase a row, whichever value holds it. -/
def Listing.erase (listing : Listing K) (row : Row) : Listing K :=
  fun value => (listing value).erase row

/-- How a change alters the listing. A row that holds the value already stays where it is. A row
that gets another value is erased first, and then put directly behind the first row of the value. -/
def Listing.apply (listing : Listing K) : Change K → Listing K
  | .insert value row =>
      if row ∈ listing value then listing
      else Function.update (listing.erase row) value (enter row (listing.erase row value))
  | .remove row => listing.erase row
  | .removeValue value => Function.update listing value []
  | .clear => fun _ => []

/-- What is answered to a change: whether the row was held, or how many rows the value had. -/
def Listing.Answers (listing : Listing K) : Change K → Answer → Prop
  | .insert _ _, answer => answer = .done
  | .remove row, answer =>
      ∃ held, answer = .removed held ∧ (held = true ↔ ∃ value, row ∈ listing value)
  | .removeValue value, answer => answer = .emptied (listing value).length
  | .clear, answer => answer = .done

variable [Hashable K]

/-- The index answers all questions from the listing. Walking along the rows of a value yields them
in their order and ends. -/
structure Agrees (index : ValueIndex K) (listing : Listing K) : Prop where
  nodup : ∀ value, (listing value).Nodup
  rows : ∀ value, index.rows value = .ok (listing value)
  walks : ∀ value limit,
    index.arena.walk limit index.heads[value]? = .ok ((listing value).take limit)
  valueOf : ∀ row value, index.valueOf? row = some value ↔ row ∈ listing value
  counts : ∃ held : Finset K, (∀ value, value ∈ held ↔ listing value ≠ []) ∧
    index.valueCount = held.card ∧ index.size = ∑ value ∈ held, (listing value).length
  isEmpty : index.isEmpty = true ↔ ∀ value, listing value = []

/-- The changes can be made one after another, each of them is answered and alters the listing as it
should, and the index agrees with the listing before, between and after the changes. -/
def Mirrors (index : ValueIndex K) (listing : Listing K) : List (Change K) → Prop
  | [] => index.Agrees listing
  | change :: later => index.Agrees listing ∧
      ∃ answer next, index.perform change = .ok (answer, next) ∧
        listing.Answers change answer ∧ next.Mirrors (listing.apply change) later

section Steps

variable {index : ValueIndex K} {chains : K → Chain} {value : K}

/-- The rows in the chains. -/
def Listing.ofChains (chains : K → Chain) : Listing K :=
  fun value => (chains value).rows

theorem Tracks.mem_heads (tracks : index.Tracks chains) :
    value ∈ index.heads.keys.toFinset ↔ (chains value).rows ≠ [] := by
  rw [List.mem_toFinset, Std.HashMap.mem_keys, Std.HashMap.mem_iff_isSome_getElem?, tracks.leads]
  cases chains value <;> simp [first, Chain.rows]

theorem valueCount_eq_card (index : ValueIndex K) :
    index.valueCount = index.heads.keys.toFinset.card := by
  have nodup : index.heads.keys.Nodup := Std.HashMap.nodup_keys
  rw [List.toFinset_card_of_nodup nodup, Std.HashMap.length_keys, valueCount]

theorem Tracks.mem_entries (tracks : index.Tracks chains) {row : Row} :
    row ∈ index.entries ↔ ∃ value, row ∈ (chains value).rows := by
  rw [Std.HashMap.mem_iff_isSome_getElem?, Option.isSome_iff_exists]
  constructor
  · rintro ⟨⟨value, slot⟩, found⟩
    exact ⟨value, mem_rows.mpr ⟨slot, (tracks.locates row value slot).mp found⟩⟩
  · rintro ⟨value, member⟩
    obtain ⟨slot, inside⟩ := mem_rows.mp member
    exact ⟨(value, slot), (tracks.locates row value slot).mpr inside⟩

/-- No row is counted twice, because each row is among those of one value only. -/
theorem Tracks.size_eq_sum (tracks : index.Tracks chains) :
    index.size = ∑ value ∈ index.heads.keys.toFinset, (chains value).rows.length := by
  have nodup : index.entries.keys.Nodup := Std.HashMap.nodup_keys
  have split : index.entries.keys.toFinset =
      index.heads.keys.toFinset.biUnion fun value => (chains value).rows.toFinset := by
    ext row
    rw [List.mem_toFinset, Std.HashMap.mem_keys, tracks.mem_entries]
    simp only [Finset.mem_biUnion, tracks.mem_heads, List.mem_toFinset]
    constructor
    · rintro ⟨value, member⟩
      exact ⟨value, List.ne_nil_of_mem member, member⟩
    · rintro ⟨value, -, member⟩
      exact ⟨value, member⟩
  have apart : (index.heads.keys.toFinset : Set K).PairwiseDisjoint
      fun value => (chains value).rows.toFinset := by
    intro first _ second _ different
    refine Finset.disjoint_left.mpr ?_
    intro row inFirst inSecond
    rw [List.mem_toFinset, ← tracks.valueOf?_eq_some] at inFirst inSecond
    exact different (Option.some.inj (inFirst.symm.trans inSecond))
  calc
    index.size = index.entries.keys.toFinset.card := by
      rw [List.toFinset_card_of_nodup nodup, Std.HashMap.length_keys, size]
    _ = ∑ value ∈ index.heads.keys.toFinset, (chains value).rows.toFinset.card := by
      rw [split, Finset.card_biUnion apart]
    _ = ∑ value ∈ index.heads.keys.toFinset, (chains value).rows.length :=
      Finset.sum_congr rfl fun value _ => List.toFinset_card_of_nodup (tracks.nodup_rows value)

theorem Tracks.isEmpty_iff (tracks : index.Tracks chains) :
    index.isEmpty = true ↔ ∀ value, (chains value).rows = [] := by
  rw [isEmpty, Std.HashMap.isEmpty_iff_forall_not_mem]
  constructor
  · intro nothing value
    refine List.eq_nil_iff_forall_not_mem.mpr ?_
    intro row member
    exact nothing row (tracks.mem_entries.mpr ⟨value, member⟩)
  · intro nothing row member
    obtain ⟨value, inside⟩ := tracks.mem_entries.mp member
    simp [nothing value] at inside

/-- An index that tracks its chains answers from the rows in them. -/
theorem Tracks.agrees (tracks : index.Tracks chains) :
    index.Agrees (Listing.ofChains chains) where
  nodup := tracks.nodup_rows
  rows := tracks.rows
  walks value limit := by
    rw [tracks.leads]
    exact Arena.walk_of_linked (tracks.holds.linked value) limit
  valueOf _ _ := tracks.valueOf?_eq_some
  counts := ⟨index.heads.keys.toFinset, fun _ => tracks.mem_heads, index.valueCount_eq_card,
    tracks.size_eq_sum⟩
  isEmpty := tracks.isEmpty_iff

theorem Tracks.step_insert (tracks : index.Tracks chains) (value : K) (row : Row) :
    ∃ next nextChains, index.perform (.insert value row) = .ok (.done, next) ∧
      next.Tracks nextChains ∧
      Listing.ofChains nextChains = (Listing.ofChains chains).apply (.insert value row) := by
  by_cases held : row ∈ (chains value).rows
  · refine ⟨index, chains, ?_, tracks, ?_⟩
    · simp only [perform, tracks.insert_of_mem held]
      rfl
    · exact (if_pos held).symm
  · obtain ⟨next, nextChains, inserted, nextTracks, entered, erased⟩ :=
      tracks.insert_of_not_mem held
    refine ⟨next, nextChains, ?_, nextTracks, ?_⟩
    · simp only [perform, inserted]
      rfl
    · refine Eq.trans ?_ (if_neg held).symm
      funext other
      by_cases same : other = value
      · subst other
        rw [Function.update_self]
        exact entered
      · rw [Function.update_of_ne same]
        exact erased other same

/-- Every change can be made. It is answered and alters the rows in the chains as it should. -/
theorem Tracks.step (tracks : index.Tracks chains) (change : Change K) :
    ∃ answer next nextChains, index.perform change = .ok (answer, next) ∧
      (Listing.ofChains chains).Answers change answer ∧ next.Tracks nextChains ∧
      Listing.ofChains nextChains = (Listing.ofChains chains).apply change := by
  cases change with
  | insert value row =>
      obtain ⟨next, nextChains, performed, nextTracks, applied⟩ := tracks.step_insert value row
      exact ⟨.done, next, nextChains, performed, rfl, nextTracks, applied⟩
  | remove row =>
      obtain ⟨held, next, nextChains, removed, nextTracks, answered, erased⟩ := tracks.remove row
      refine ⟨.removed held, next, nextChains, ?_, ⟨held, rfl, answered⟩, nextTracks,
        funext erased⟩
      simp only [perform, removed]
      rfl
  | removeValue value =>
      obtain ⟨next, removed, nextTracks⟩ := tracks.removeValue value
      refine ⟨.emptied (chains value).length, next, _, ?_, ?_, nextTracks, ?_⟩
      · simp only [perform, removed]
        rfl
      · exact congrArg Answer.emptied (length_rows _).symm
      · exact Function.comp_update Chain.rows chains value []
  | clear => exact ⟨.done, empty, _, rfl, rfl, tracks_empty, rfl⟩

theorem Tracks.mirrors (tracks : index.Tracks chains) (changes : List (Change K)) :
    index.Mirrors (Listing.ofChains chains) changes := by
  induction changes generalizing index chains with
  | nil => exact tracks.agrees
  | cons change later ih =>
      obtain ⟨answer, next, nextChains, performed, answered, nextTracks, applied⟩ :=
        tracks.step change
      refine ⟨tracks.agrees, answer, next, performed, answered, ?_⟩
      rw [← applied]
      exact ih nextTracks

end Steps

/-- Whatever is changed about a new index, one change after another: no slot is ever stale, and the
index agrees with the listing of its rows all the time. -/
theorem mirrors_empty (changes : List (Change K)) :
    (empty : ValueIndex K).Mirrors (fun _ => []) changes :=
  tracks_empty.mirrors changes

end TableFeed.ValueIndex
