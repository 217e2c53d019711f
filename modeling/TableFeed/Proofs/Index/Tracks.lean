import TableFeed.Index.ValueIndex
import TableFeed.Proofs.Index.Layout

/-!
# The chains behind an index

An index keeps the rows of each value in a chain of its arena. It knows the slot in which each
chain begins, and the value and slot of each row. The main statements say which chain each operation
of the index changes, and that it never meets a stale slot. When the first row of a chain leaves,
the second row moves into its slot, and the index has to learn about it.
-/

namespace TableFeed.ValueIndex

open Chain

variable {K : Type} {entries later : Std.HashMap Row (K × Slot)}
variable {chains : K → Chain} {value : K} {slot : Slot} {row : Row} {start others : Chain}

theorem getElem?_insert_of_ne {α β : Type} [DecidableEq α] [Hashable α] (map : Std.HashMap α β)
    {key other : α} (different : other ≠ key) (entry : β) :
    (map.insert key entry)[other]? = map[other]? := by
  simp [Std.HashMap.getElem?_insert, Ne.symm different]

theorem getElem?_erase_of_ne {α β : Type} [DecidableEq α] [Hashable α] (map : Std.HashMap α β)
    {key other : α} (different : other ≠ key) : (map.erase key)[other]? = map[other]? := by
  simp [Std.HashMap.getElem?_erase, Ne.symm different]

theorem getElem?_foldl_erase (rows : List Row) (entries : Std.HashMap Row (K × Slot)) (row : Row) :
    (rows.foldl (·.erase ·) entries)[row]? = if row ∈ rows then none else entries[row]? := by
  induction rows generalizing entries with
  | nil => rfl
  | cons erased rows ih =>
      rw [List.foldl_cons, ih]
      by_cases same : row = erased
      · simp [same]
      · rw [getElem?_erase_of_ne _ same]
        simp [same]

/-- The entries tell the chain and the slot of each row, and name no other rows. -/
def Locates (entries : Std.HashMap Row (K × Slot)) (chains : K → Chain) : Prop :=
  ∀ row value slot, entries[row]? = some (value, slot) ↔ (slot, row) ∈ chains value

theorem Locates.unique (locates : Locates entries chains) {other : K} {otherSlot : Slot}
    (member : (slot, row) ∈ chains value) (again : (otherSlot, row) ∈ chains other) :
    other = value ∧ otherSlot = slot := by
  have found := (locates row value slot).mpr member
  have foundAgain := (locates row other otherSlot).mpr again
  rw [found] at foundAgain
  cases foundAgain
  exact ⟨rfl, rfl⟩

theorem Locates.not_mem (locates : Locates entries chains) (unknown : entries[row]? = none)
    (value : K) (slot : Slot) : (slot, row) ∉ chains value := by
  intro member
  rw [← locates, unknown] at member
  nomatch member

variable [DecidableEq K]

/-- One chain can be replaced when the entries of its rows are set and all others stay the same. -/
theorem Locates.replace (locates : Locates entries chains) {chain : Chain}
    (inside : ∀ (row : Row) (slot : Slot), later[row]? = some (value, slot) ↔ (slot, row) ∈ chain)
    (outside : ∀ (row : Row) (other : K) (slot : Slot), other ≠ value →
      (later[row]? = some (other, slot) ↔ entries[row]? = some (other, slot))) :
    Locates later (Function.update chains value chain) := by
  intro row other slot
  by_cases same : other = value
  · subst other
    rw [Function.update_self]
    exact inside row slot
  · rw [Function.update_of_ne same, ← locates]
    exact outside row other slot same

theorem Locates.insert (locates : Locates entries chains) (unknown : entries[row]? = none)
    (slot : Slot) (place : chains value = start ++ others) :
    Locates (entries.insert row (value, slot))
      (Function.update chains value (start ++ (slot, row) :: others)) := by
  apply locates.replace
  · intro other otherSlot
    by_cases same : other = row
    · subst other
      have nowhere := locates.not_mem unknown value otherSlot
      rw [place, List.mem_append, not_or] at nowhere
      simp [nowhere, eq_comm]
    · rw [getElem?_insert_of_ne _ same, locates, place]
      simp [same]
  · intro other otherValue otherSlot different
    by_cases same : other = row
    · subst other
      simp [unknown, Ne.symm different]
    · rw [getElem?_insert_of_ne _ same]

theorem Locates.erase (locates : Locates entries chains)
    (place : chains value = start ++ (slot, row) :: others)
    (once : (slot, row) ∉ start ++ others) :
    Locates (entries.erase row) (Function.update chains value (start ++ others)) := by
  have member : (slot, row) ∈ chains value := by
    simp [place]
  apply locates.replace
  · intro other otherSlot
    by_cases same : other = row
    · subst other
      simp only [Std.HashMap.getElem?_erase_self, reduceCtorEq, false_iff]
      intro stays
      have again : (otherSlot, row) ∈ chains value := by
        rw [place]
        exact List.mem_append.mpr ((List.mem_append.mp stays).imp_right (List.mem_cons_of_mem _))
      obtain ⟨-, rfl⟩ := locates.unique member again
      exact once stays
    · rw [getElem?_erase_of_ne _ same, locates, place]
      simp [same]
  · intro other otherValue otherSlot different
    by_cases same : other = row
    · subst other
      simp [(locates row value slot).mpr member, Ne.symm different]
    · rw [getElem?_erase_of_ne _ same]

theorem Locates.move (locates : Locates entries chains) {next : Slot}
    (place : chains value = (next, row) :: others) (once : (next, row) ∉ others) (slot : Slot) :
    Locates (entries.modify row fun (value, _) => (value, slot))
      (Function.update chains value ((slot, row) :: others)) := by
  have member : (next, row) ∈ chains value := by
    simp [place]
  have found := (locates row value next).mpr member
  have behind : ∀ otherSlot, (otherSlot, row) ∉ others := by
    intro otherSlot inside
    have again : (otherSlot, row) ∈ chains value := by
      simp [place, inside]
    obtain ⟨-, rfl⟩ := locates.unique member again
    exact once inside
  apply locates.replace
  · intro other otherSlot
    rw [Std.HashMap.getElem?_modify]
    by_cases same : row = other
    · subst other
      simp [found, behind otherSlot, eq_comm]
    · simp [same, Ne.symm same, locates other value otherSlot, place]
  · intro other otherValue otherSlot different
    rw [Std.HashMap.getElem?_modify]
    by_cases same : row = other
    · subst other
      simp [found, Ne.symm different]
    · simp [same]

theorem Locates.eraseAll (locates : Locates entries chains) (value : K) :
    Locates ((chains value).rows.foldl (·.erase ·) entries) (Function.update chains value []) := by
  apply locates.replace
  · intro other slot
    rw [getElem?_foldl_erase]
    split
    · simp
    · rename_i outside
      simp only [List.not_mem_nil, iff_false]
      intro found
      exact outside (List.mem_map.mpr ⟨_, (locates other value slot).mp found, rfl⟩)
  · intro other otherValue slot different
    rw [getElem?_foldl_erase]
    split
    · rename_i inside
      simp only [reduceCtorEq, false_iff]
      intro found
      obtain ⟨⟨erasedSlot, _⟩, erased, rfl⟩ := List.mem_map.mp inside
      exact different (locates.unique erased ((locates _ _ _).mp found)).1
    · rfl

variable [Hashable K] {heads laterHeads : Std.HashMap K Slot} {index : ValueIndex K}

/-- The heads are the slots in which the chains begin. -/
def Leads (heads : Std.HashMap K Slot) (chains : K → Chain) : Prop :=
  ∀ value, heads[value]? = first none (chains value)

theorem Leads.replace (leads : Leads heads chains) {chain : Chain}
    (begins : laterHeads[value]? = first none chain)
    (same : ∀ other, other ≠ value → laterHeads[other]? = heads[other]?) :
    Leads laterHeads (Function.update chains value chain) := by
  apply (Function.forall_update_iff chains fun value chain =>
    laterHeads[value]? = first none chain).mpr
  refine ⟨begins, ?_⟩
  intro other different
  rw [same other different, leads]

/-- The chains lie in the arena of the index, and the index finds its way about them. -/
structure Tracks (index : ValueIndex K) (chains : K → Chain) : Prop where
  holds : index.arena.Holds chains
  leads : Leads index.heads chains
  locates : Locates index.entries chains

theorem tracks_empty : (empty : ValueIndex K).Tracks fun _ => [] where
  holds := Arena.holds_empty
  leads _ := Std.HashMap.getElem?_empty
  locates row value slot := by simp [empty]

/-- Put an entry directly behind the first one of a list. -/
def enter {α : Type} (entry : α) : List α → List α
  | [] => [entry]
  | head :: others => head :: entry :: others

theorem map_enter {α β : Type} (change : α → β) (entry : α) (entries : List α) :
    (enter entry entries).map change = enter (change entry) (entries.map change) := by
  cases entries <;> rfl

/-- A new row enters the chain of its value directly behind the first row. -/
theorem Tracks.place (tracks : index.Tracks chains) (unknown : index.entries[row]? = none)
    (value : K) :
    ∃ slot next, index.place value row = .ok next ∧
      next.Tracks (Function.update chains value (enter (slot, row) (chains value))) := by
  have begins := tracks.leads value
  cases chain : chains value with
  | nil =>
      rw [chain, first] at begins
      have alone : chains value = [] ++ [] := chain
      obtain ⟨slot, later, added, -, holds⟩ := tracks.holds.add_alone row
      refine ⟨slot, ⟨later, index.heads.insert value slot, index.entries.insert row (value, slot)⟩,
        ?_, holds value chain, ?_, tracks.locates.insert unknown slot alone⟩
      · simp only [ValueIndex.place, begins, added]
        rfl
      · apply tracks.leads.replace
        · exact Std.HashMap.getElem?_insert_self
        · exact fun other different => getElem?_insert_of_ne _ different slot
  | cons link others =>
      obtain ⟨head, headRow⟩ := link
      rw [chain, first_cons] at begins
      have behind : chains value = [] ++ [(head, headRow)] ++ others := chain
      obtain ⟨slot, later, added, -, holds⟩ := tracks.holds.add_behind behind row
      refine ⟨slot, ⟨later, index.heads, index.entries.insert row (value, slot)⟩, ?_, holds, ?_,
        tracks.locates.insert unknown slot behind⟩
      · simp only [ValueIndex.place, begins, added]
        rfl
      · exact tracks.leads.replace begins fun _ _ => rfl

theorem Tracks.nodup_chain (tracks : index.Tracks chains) (value : K) : (chains value).Nodup :=
  List.Nodup.of_map Prod.fst (tracks.holds.distinct value)

theorem Tracks.nodup_rows (tracks : index.Tracks chains) (value : K) :
    (chains value).rows.Nodup := by
  apply List.Nodup.map_on _ (tracks.nodup_chain value)
  rintro ⟨slot, row⟩ member ⟨otherSlot, otherRow⟩ again rfl
  obtain ⟨-, rfl⟩ := tracks.locates.unique member again
  rfl

theorem Tracks.rows_erase (tracks : index.Tracks chains)
    (place : chains value = start ++ (slot, row) :: others) {chain : Chain}
    (sameRows : chain.rows = start.rows ++ others.rows) (other : K) :
    Chain.rows (Function.update chains value chain other) = (chains other).rows.erase row := by
  by_cases same : other = value
  · subst other
    have nodup := tracks.nodup_rows value
    rw [place, rows_append, rows_cons, List.nodup_middle, List.nodup_cons, List.mem_append,
      not_or] at nodup
    rw [Function.update_self, sameRows, place, rows_append, rows_cons,
      List.erase_append_right _ nodup.1.1, List.erase_cons_head]
  · have outside : row ∉ (chains other).rows := by
      intro inside
      obtain ⟨otherSlot, again⟩ := mem_rows.mp inside
      have member : (slot, row) ∈ chains value := by
        simp [place]
      exact same (tracks.locates.unique member again).1
    rw [Function.update_of_ne same, List.erase_of_not_mem outside]

/-- The row of a link leaves the index. A row that moves into its slot is entered there. -/
theorem Tracks.remove_of_place (tracks : index.Tracks chains)
    (place : chains value = start ++ (slot, row) :: others) :
    ∃ next nextChains, index.remove row = .ok (true, next) ∧ next.Tracks nextChains ∧
      ∀ other, (nextChains other).rows = (chains other).rows.erase row := by
  have found : index.entries[row]? = some (value, slot) := by
    rw [tracks.locates, place]
    simp
  have distinct := tracks.nodup_chain value
  rw [place, List.nodup_middle, List.nodup_cons] at distinct
  have linked := tracks.holds.linked value
  rw [place] at linked
  have cell := linked.cell
  have erased := tracks.locates.erase place distinct.1
  have begins := tracks.leads value
  rw [place, first_append] at begins
  rcases List.eq_nil_or_concat start with rfl | ⟨start, ⟨previous, frontRow⟩, rfl⟩
  · cases others with
    | nil =>
        obtain ⟨later, removed, holds⟩ := tracks.holds.remove_only place
        refine ⟨⟨later, index.heads.erase value, index.entries.erase row⟩, _, ?_,
          ⟨holds, ?_, erased⟩, tracks.rows_erase place rfl⟩
        · simp only [ValueIndex.remove, successor, found, Arena.cell_of_cell? cell, removed, last,
            first, bind, Except.bind, pure, Except.pure, if_true]
        · apply tracks.leads.replace
          · exact Std.HashMap.getElem?_erase_self
          · exact fun other different => getElem?_erase_of_ne _ different
    | cons link others =>
        -- The slot stays with its new row, and so the chain begins where it did before.
        obtain ⟨next, second⟩ := link
        have nextCell := linked.2.1
        obtain ⟨later, removed, holds⟩ := tracks.holds.remove_first place
        have placeErased : Function.update chains value ([] ++ (next, second) :: others) value =
            (next, second) :: others := Function.update_self ..
        have moved := erased.move placeErased (List.nodup_cons.mp distinct.2).1 slot
        rw [Function.update_idem] at moved
        let entries := (index.entries.erase row).modify second fun (value, _) => (value, slot)
        refine ⟨⟨later, index.heads, entries⟩, _, ?_, ⟨holds, ?_, moved⟩,
          tracks.rows_erase place rfl⟩
        · simp only [ValueIndex.remove, successor, found, Arena.cell_of_cell? cell,
            Arena.cell_of_cell? nextCell, removed, last, first, bind, Except.bind, pure,
            Except.pure, Bool.false_eq_true, if_false]
          rfl
        · exact tracks.leads.replace begins fun _ _ => rfl
  · rw [List.concat_eq_append] at place cell erased begins
    have behind : chains value = start ++ [(previous, frontRow), (slot, row)] ++ others := by
      simpa using place
    obtain ⟨later, removed, holds⟩ := tracks.holds.remove_later behind
    rw [last_append] at cell
    refine ⟨⟨later, index.heads, index.entries.erase row⟩, _, ?_, ⟨holds, ?_, erased⟩,
      tracks.rows_erase place (rows_append _ _)⟩
    · simp only [ValueIndex.remove, successor, found, Arena.cell_of_cell? cell, removed, last, bind,
        Except.bind, pure, Except.pure, Bool.false_eq_true, if_false]
    · apply tracks.leads.replace
      · rw [begins, first_append, first_append, first_append]
        rfl
      · exact fun _ _ => rfl

/-- Removing a row erases it from the rows of every value. -/
theorem Tracks.remove (tracks : index.Tracks chains) (row : Row) :
    ∃ held next nextChains, index.remove row = .ok (held, next) ∧ next.Tracks nextChains ∧
      (held = true ↔ ∃ value, row ∈ (chains value).rows) ∧
      ∀ other, (nextChains other).rows = (chains other).rows.erase row := by
  cases found : index.entries[row]? with
  | none =>
      have outside : ∀ value, row ∉ (chains value).rows := by
        intro value inside
        obtain ⟨slot, member⟩ := mem_rows.mp inside
        exact tracks.locates.not_mem found value slot member
      refine ⟨false, index, chains, ?_, tracks, by simp [outside], ?_⟩
      · simp only [ValueIndex.remove, found]
        rfl
      · intro other
        rw [List.erase_of_not_mem (outside other)]
  | some entry =>
      obtain ⟨value, slot⟩ := entry
      have member := (tracks.locates row value slot).mp found
      obtain ⟨start, others, place⟩ := List.append_of_mem member
      obtain ⟨next, nextChains, removed, nextTracks, erased⟩ := tracks.remove_of_place place
      refine ⟨true, next, nextChains, removed, nextTracks, ?_, erased⟩
      simp only [true_iff]
      exact ⟨value, mem_rows.mpr ⟨slot, member⟩⟩

theorem Tracks.valueOf?_eq_some (tracks : index.Tracks chains) :
    index.valueOf? row = some value ↔ row ∈ (chains value).rows := by
  rw [mem_rows, valueOf?, Option.map_eq_some_iff]
  constructor
  · rintro ⟨⟨_, slot⟩, found, rfl⟩
    exact ⟨slot, (tracks.locates _ _ _).mp found⟩
  · rintro ⟨slot, member⟩
    exact ⟨(value, slot), (tracks.locates _ _ _).mpr member, rfl⟩

theorem Tracks.unknown (tracks : index.Tracks chains)
    (outside : ∀ value, row ∉ (chains value).rows) : index.entries[row]? = none := by
  rw [Option.eq_none_iff_forall_ne_some]
  rintro ⟨value, slot⟩ found
  exact outside value (mem_rows.mpr ⟨slot, (tracks.locates row value slot).mp found⟩)

theorem Tracks.insert_of_mem (tracks : index.Tracks chains) (held : row ∈ (chains value).rows) :
    index.insert value row = .ok index := by
  have found := tracks.valueOf?_eq_some.mpr held
  simp only [ValueIndex.insert, found, if_true]
  rfl

theorem Tracks.insert_eq_place (tracks : index.Tracks chains)
    (outside : row ∉ (chains value).rows) :
    ∃ (middle : ValueIndex K) (middleChains : K → Chain),
      index.insert value row = middle.place value row ∧
      middle.Tracks middleChains ∧
      ∀ other, (middleChains other).rows = (chains other).rows.erase row := by
  cases found : index.valueOf? row with
  | none =>
      refine ⟨index, chains, ?_, tracks, ?_⟩
      · simp only [ValueIndex.insert, found]
      · intro other
        rw [List.erase_of_not_mem]
        intro held
        rw [tracks.valueOf?_eq_some.mpr held] at found
        nomatch found
  | some current =>
      obtain ⟨held, middle, middleChains, removed, middleTracks, -, erased⟩ := tracks.remove row
      have different : current ≠ value := by
        rintro rfl
        exact outside (tracks.valueOf?_eq_some.mp found)
      refine ⟨middle, middleChains, ?_, middleTracks, erased⟩
      simp only [ValueIndex.insert, found, different, if_false, removed]
      rfl

/-- A row that does not hold the value leaves all rows, and then enters those of the value behind
the first one. -/
theorem Tracks.insert_of_not_mem (tracks : index.Tracks chains)
    (outside : row ∉ (chains value).rows) :
    ∃ next nextChains, index.insert value row = .ok next ∧ next.Tracks nextChains ∧
      (nextChains value).rows = enter row ((chains value).rows.erase row) ∧
      ∀ other, other ≠ value → (nextChains other).rows = (chains other).rows.erase row := by
  obtain ⟨middle, middleChains, inserted, middleTracks, erased⟩ := tracks.insert_eq_place outside
  have gone : ∀ other, row ∉ (middleChains other).rows := by
    intro other
    rw [erased other]
    exact (tracks.nodup_rows other).not_mem_erase
  obtain ⟨slot, next, placed, nextTracks⟩ := middleTracks.place (middleTracks.unknown gone) value
  refine ⟨next, _, inserted.trans placed, nextTracks, ?_, ?_⟩
  · rw [Function.update_self, ← erased value]
    exact map_enter Prod.snd (slot, row) (middleChains value)
  · intro other different
    rw [Function.update_of_ne different, erased other]

theorem Tracks.rows (tracks : index.Tracks chains) (value : K) :
    index.rows value = .ok (chains value).rows := by
  have short : (chains value).rows.length ≤ index.arena.slots.size := by
    simpa using tracks.holds.length_le value
  rw [ValueIndex.rows, rowsFrom, tracks.leads, Arena.walk_of_linked (tracks.holds.linked value),
    List.take_of_length_le short]

theorem Tracks.removeValue (tracks : index.Tracks chains) (value : K) :
    ∃ next, index.removeValue value = .ok ((chains value).length, next) ∧
      next.Tracks (Function.update chains value []) := by
  have listed := tracks.rows value
  rw [ValueIndex.rows, tracks.leads] at listed
  cases begins : first none (chains value) with
  | none =>
      have nothing := eq_nil_of_first begins
      refine ⟨index, ?_, ?_⟩
      · simp only [ValueIndex.removeValue, tracks.leads value, nothing]
        rfl
      · rwa [← nothing, Function.update_eq_self]
  | some head =>
      rw [begins] at listed
      obtain ⟨later, removed, holds⟩ := tracks.holds.removeList begins
      refine ⟨⟨later, index.heads.erase value, _⟩, ?_, holds, ?_, tracks.locates.eraseAll value⟩
      · simp only [ValueIndex.removeValue, tracks.leads value, begins, listed, removed]
        rfl
      · apply tracks.leads.replace
        · exact Std.HashMap.getElem?_erase_self
        · exact fun other different => getElem?_erase_of_ne _ different

end TableFeed.ValueIndex
