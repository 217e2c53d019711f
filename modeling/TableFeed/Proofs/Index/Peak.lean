import TableFeed.Proofs.Index.Wiring
import TableFeed.Proofs.Index.Books

/-!
# How many slots an arena gets

An arena gets a new slot only when all of its slots are occupied. So it has as many slots as were
ever occupied at the same time since it was last cleared. The main statement says so about every run
of an arena, even if its links are broken, and about every run of an index: a row that gets another
value gives its slot back before it takes one.
-/

namespace TableFeed

/-- The states that some acts lead through since the last act that clears everything, latest state
first. The past states are those before the first act. -/
def statesSince {State Act : Type} (step : State → Act → Except StaleSlot State)
    (clears : Act → Bool) (past : List State) (state : State) :
    List Act → Except StaleSlot (List State)
  | [] => .ok (state :: past)
  | act :: acts => do
      let later ← step state act
      statesSince step clears (if clears act then [] else state :: past) later acts

/-- The latest state has as many slots as the largest size among it and the states before. -/
def Peaked {State : Type} (slots size : State → Nat) (latest : State) (past : List State) : Prop :=
  ((latest :: past).map size).max? = some (slots latest)

section Runs

variable {State Act : Type} {step : State → Act → Except StaleSlot State} {clears : Act → Bool}
variable {slots size : State → Nat} {kept : State → Prop} {state later : State} {past : List State}

/-- New slots only as far as the size needs them: the peak moves to the later state. -/
theorem Peaked.grow (peaked : Peaked slots size state past)
    (grown : slots later = max (slots state) (size later)) :
    Peaked slots size later (state :: past) := by
  rw [Peaked, List.map_cons, List.max?_cons, peaked, Option.elim_some, grown, Nat.max_comm]

/-- If each act adds slots only as far as the size needs them, and an act that clears everything
leaves as many as it needs, then the slots are as many as the largest size since then. -/
theorem yields_peaked
    (stepGrows : ∀ state act, kept state → Arena.Yields (fun later => kept later ∧
      slots later = if clears act then size later else max (slots state) (size later))
      (step state act))
    (acts : List Act) (stateKept : kept state) (peaked : Peaked slots size state past) :
    Arena.Yields (fun latest => ∃ since, statesSince step clears past state acts =
      .ok (latest :: since) ∧ Peaked slots size latest since) (acts.foldlM step state) := by
  induction acts generalizing state past with
  | nil => exact ⟨past, rfl, peaked⟩
  | cons act acts ih =>
      have grows := stepGrows state act stateKept
      simp only [List.foldlM_cons, statesSince]
      cases stepped : step state act with
      | error stale => trivial
      | ok later =>
          rw [stepped] at grows
          obtain ⟨laterKept, laterSlots⟩ := grows
          apply ih laterKept
          cases cleared : clears act with
          | true => simpa [Peaked, cleared] using laterSlots.symm
          | false =>
              simp only [cleared, Bool.false_eq_true, if_false] at laterSlots
              exact peaked.grow laterSlots

end Runs

namespace Arena

/-- The arena got new slots only as far as its size needed them. -/
structure Grows (arena later : Arena) : Prop where
  balanced : later.Balanced
  slots : later.slots.size = max arena.slots.size later.size

/-- The arena got no new slots, and none was taken. -/
structure Shrinks (arena later : Arena) : Prop where
  balanced : later.Balanced
  slots : later.slots.size = arena.slots.size
  size : later.size ≤ arena.size

/-- At most the contents of occupied slots have changed. -/
structure Rewritten (arena later : Arena) : Prop where
  slots : later.slots.size = arena.slots.size
  size : later.size = arena.size

section Yields

variable {α : Type} {result : Except StaleSlot α} {after others : α → Prop}

theorem Yields.and (yields : Yields after result) (again : Yields others result) :
    Yields (fun answer => after answer ∧ others answer) result := by
  cases result with
  | error stale => trivial
  | ok answer => exact ⟨yields, again⟩

theorem Yields.mono (yields : Yields after result)
    (weaker : ∀ answer, after answer → others answer) :
    Yields others result := by
  cases result with
  | error stale => trivial
  | ok answer => exact weaker answer yields

end Yields

section Rooms

variable {arena middle later : Arena}

theorem Rewritten.trans (first : Rewritten arena middle) (second : Rewritten middle later) :
    Rewritten arena later :=
  ⟨second.slots.trans first.slots, second.size.trans first.size⟩

theorem rewritten_modify (arena : Arena) (slot : Slot) (change : Cell → Cell) :
    Yields (Rewritten arena) (arena.modify slot change) := by
  apply (yields_cell arena slot).bind
  intro cell _
  exact ⟨Array.size_setIfInBounds, rfl⟩

theorem rewritten_tell (arena : Arena) (link front : Option Slot) :
    Yields (Rewritten arena) (arena.tell link front) := by
  cases link with
  | none => exact ⟨rfl, rfl⟩
  | some slot => exact rewritten_modify arena slot _

theorem rewritten_enter (arena : Arena) (slot : Slot) (head : Option Slot) :
    Yields (Rewritten arena) (arena.enter slot head) := by
  cases head with
  | none => exact ⟨rfl, rfl⟩
  | some head =>
      apply (yields_cell arena head).bind
      intro cell _
      apply (rewritten_modify arena head _).bind
      intro first firstRewritten
      apply (rewritten_modify first slot _).bind
      intro second secondRewritten
      apply (rewritten_tell second _ _).mono
      intro third thirdRewritten
      exact (firstRewritten.trans secondRewritten).trans thirdRewritten

theorem rewritten_unlink (arena : Arena) (slot : Slot) :
    Yields (fun loosened => Rewritten arena loosened.2.2) (arena.unlink slot) := by
  have splice : ∀ kept freed change link,
      Yields (fun loosened : Bool × Slot × Arena => Rewritten arena loosened.2.2) (do
        let changed ← arena.modify kept change
        return (false, freed, ← changed.tell link (some kept))) := by
    intro kept freed change link
    apply (rewritten_modify arena kept change).bind
    intro changed changedRewritten
    apply (rewritten_tell changed link (some kept)).bind
    intro later laterRewritten
    exact changedRewritten.trans laterRewritten
  apply (yields_cell arena slot).bind
  intro cell _
  rcases cell with ⟨_ | previous, _ | next, row⟩
  · exact ⟨rfl, rfl⟩
  · apply (yields_cell arena next).bind
    intro second _
    exact splice _ _ _ _
  · exact splice _ _ _ none
  · exact splice _ _ _ (some next)

/-- A new slot is taken only if none is free, and then all slots are occupied. -/
theorem Balanced.take_slots (balanced : arena.Balanced) (cell : Cell) :
    (arena.take cell).2.slots.size = max arena.slots.size (arena.take cell).2.size := by
  have counted := balanced.slots_size
  cases stacked : arena.free with
  | nil =>
      simp only [stacked, List.length_nil] at counted
      simp only [Arena.take, stacked, Array.size_push]
      omega
  | cons slot free =>
      simp only [stacked, List.length_cons] at counted
      simp only [Arena.take, stacked, Array.size_setIfInBounds]
      omega

/-- Adding a row takes a slot, and then only links are changed. -/
theorem Balanced.grows_add (balanced : arena.Balanced) (head : Option Slot) (row : Row) :
    Yields (fun (_, later) => Grows arena later) (arena.add head row) := by
  have room := balanced.take_slots ⟨none, none, row⟩
  have resized : Yields (fun (_, later) => later.slots.size = max arena.slots.size later.size)
      (arena.add head row) := by
    rw [add_eq]
    apply (rewritten_enter _ _ head).bind
    intro later laterRewritten
    change later.slots.size = max _ later.size
    rw [laterRewritten.slots, laterRewritten.size, room]
  apply ((balanced.yields_add head row).and resized).mono
  rintro ⟨slot, later⟩ ⟨kept, slots⟩
  exact ⟨kept, slots⟩

theorem Balanced.shrinks_remove (balanced : arena.Balanced) (slot : Slot) :
    Yields (fun (_, later) => Shrinks arena later) (arena.remove slot) := by
  have resized : Yields
      (fun (_, later) => later.slots.size = arena.slots.size ∧ later.size ≤ arena.size)
      (arena.remove slot) := by
    rw [remove_eq]
    apply (rewritten_unlink arena slot).bind
    rintro ⟨only, freed, later⟩ laterRewritten
    refine ⟨Array.size_setIfInBounds.trans laterRewritten.slots, ?_⟩
    rw [← laterRewritten.size]
    exact Nat.sub_le later.size 1
  apply ((balanced.yields_remove slot).and resized).mono
  rintro ⟨only, later⟩ ⟨kept, slots, size⟩
  exact ⟨kept, slots, size⟩

theorem yields_removeList (arena : Arena) (head : Slot) :
    Yields (fun (_, later) => later.slots.size = arena.slots.size ∧ later.size ≤ arena.size)
      (arena.removeList head) := by
  have released : ∀ (arena : Arena) slot, (arena.release slot).slots.size = arena.slots.size ∧
      (arena.release slot).size ≤ arena.size :=
    fun arena slot => ⟨Array.size_setIfInBounds, Nat.sub_le arena.size 1⟩
  fun_induction arena.removeList head with
  | case1 arena head vacant => trivial
  | case2 arena head cell found last => exact released arena head
  | case3 arena head cell found next leads ih =>
      apply ih.bind
      rintro ⟨count, later⟩ ⟨slots, size⟩
      exact ⟨slots.trans (released arena head).1, size.trans (released arena head).2⟩

theorem Balanced.shrinks_removeList (balanced : arena.Balanced) (head : Slot) :
    Yields (fun (_, later) => Shrinks arena later) (arena.removeList head) := by
  apply ((balanced.removeList_spec head).2.and (yields_removeList arena head)).mono
  rintro ⟨count, later⟩ ⟨kept, slots, size⟩
  exact ⟨kept, slots, size⟩

theorem Balanced.size_le (balanced : arena.Balanced) : arena.size ≤ arena.slots.size := by
  have counted := balanced.slots_size
  omega

theorem Shrinks.grows (shrinks : Shrinks arena later) (balanced : arena.Balanced) :
    Grows arena later := by
  have counted := balanced.size_le
  have fewer := shrinks.size
  refine ⟨shrinks.balanced, ?_⟩
  rw [shrinks.slots]
  omega

theorem Shrinks.trans_grows (shrinks : Shrinks arena middle) (grows : Grows middle later) :
    Grows arena later :=
  ⟨grows.balanced, by rw [grows.slots, shrinks.slots]⟩

theorem Balanced.grows_refl (balanced : arena.Balanced) : Grows arena arena :=
  ⟨balanced, (Nat.max_eq_left balanced.size_le).symm⟩

end Rooms

/-- Whether an act clears the arena. -/
def Act.clears : Act → Bool
  | .call .clear => true
  | _ => false

theorem afterAll_eq_foldlM (arena : Arena) (acts : List Act) :
    arena.afterAll acts = acts.foldlM after arena := by
  induction acts generalizing arena with
  | nil => rfl
  | cons act acts ih => simp only [afterAll, List.foldlM_cons, ih]

/-- Clearing leaves no slots, and everything else adds slots only as far as the size needs them. -/
theorem Balanced.grows_after {arena : Arena} (balanced : arena.Balanced) (act : Act) :
    Yields (fun later => later.Balanced ∧ later.slots.size =
      if act.clears then later.size else max arena.slots.size later.size) (arena.after act) := by
  have same := balanced.grows_refl.slots
  apply (balanced.after_spec act).2.and
  cases act with
  | call call =>
      cases call with
      | add head row =>
          apply ((balanced.grows_add head row).bind _).bind
          · exact fun answered (grows : Grows arena answered.2) => grows.slots
          · exact fun added grows => grows
      | remove slot =>
          apply ((balanced.shrinks_remove slot).bind _).bind
          · exact fun answered (grows : Grows arena answered.2) => grows.slots
          · exact fun removed shrinks => shrinks.grows balanced
      | removeList head =>
          apply ((balanced.shrinks_removeList head).bind _).bind
          · exact fun answered (grows : Grows arena answered.2) => grows.slots
          · exact fun removed shrinks => shrinks.grows balanced
      | clear => exact rfl
  | look slot => exact (yields_cell arena slot).bind fun _ _ => same
  | walk limit head =>
      have walked : Yields (fun _ => True) (arena.walk limit head) := by
        cases arena.walk limit head <;> trivial
      exact walked.bind fun _ _ => same

end Arena

namespace ValueIndex

open Arena

variable {K : Type} [DecidableEq K] [Hashable K]

/-- Whether a change clears the index. -/
def Change.clears : Change K → Bool
  | .clear => true
  | _ => false

/-- The index that a change leaves behind. -/
def after (index : ValueIndex K) (change : Change K) : Except StaleSlot (ValueIndex K) := do
  let (_, later) ← index.perform change
  return later

/-- The index tracks some chains of rows. -/
def Tracked (index : ValueIndex K) : Prop :=
  ∃ chains, index.Tracks chains

theorem run_eq_foldlM (index : ValueIndex K) (changes : List (Change K)) :
    index.run changes = changes.foldlM after index := by
  induction changes generalizing index with
  | nil => rfl
  | cons change later ih =>
      simp only [run, List.foldlM_cons, after, bind_assoc, pure_bind, ih]

section Changes

variable {index next : ValueIndex K} {value : K} {row : Row}

theorem grows_place (balanced : index.arena.Balanced)
    (placed : index.place value row = .ok next) : Grows index.arena next.arena := by
  obtain ⟨⟨slot, arena⟩, added, placed⟩ := bind_eq_ok.mp placed
  cases placed
  exact (balanced.grows_add _ _).answer added

theorem shrinks_remove {held : Bool} (balanced : index.arena.Balanced)
    (removed : index.remove row = .ok (held, next)) : Shrinks index.arena next.arena := by
  cases found : index.entries[row]? with
  | none =>
      simp only [remove, found] at removed
      cases removed
      exact ⟨balanced, rfl, le_rfl⟩
  | some entry =>
      simp only [remove, found] at removed
      obtain ⟨moved, -, removed⟩ := bind_eq_ok.mp removed
      obtain ⟨⟨emptied, arena⟩, left, removed⟩ := bind_eq_ok.mp removed
      have same : next.arena = arena := by
        cases moved <;> cases removed <;> rfl
      rw [same]
      exact (balanced.shrinks_remove _).answer left

/-- A row that gets another value gives its slot back before it takes one. -/
theorem grows_insert (balanced : index.arena.Balanced)
    (inserted : index.insert value row = .ok next) : Grows index.arena next.arena := by
  cases found : index.valueOf? row with
  | none =>
      simp only [insert, found] at inserted
      exact grows_place balanced inserted
  | some current =>
      simp only [insert, found] at inserted
      split at inserted
      · cases inserted
        exact balanced.grows_refl
      · obtain ⟨⟨held, middle⟩, leaves, enters⟩ := bind_eq_ok.mp inserted
        have shrinks := shrinks_remove balanced leaves
        exact shrinks.trans_grows (grows_place shrinks.balanced enters)

theorem shrinks_removeValue {count : Nat} (balanced : index.arena.Balanced)
    (removed : index.removeValue value = .ok (count, next)) : Shrinks index.arena next.arena := by
  cases begins : index.heads[value]? with
  | none =>
      simp only [removeValue, begins] at removed
      cases removed
      exact ⟨balanced, rfl, le_rfl⟩
  | some head =>
      simp only [removeValue, begins] at removed
      obtain ⟨rows, -, removed⟩ := bind_eq_ok.mp removed
      obtain ⟨⟨count, arena⟩, freed, removed⟩ := bind_eq_ok.mp removed
      cases removed
      exact (balanced.shrinks_removeList _).answer freed

theorem slots_of_perform {change : Change K} {answer : Answer} (balanced : index.arena.Balanced)
    (performed : index.perform change = .ok (answer, next)) :
    next.arena.slots.size = if change.clears then next.arena.size
      else max index.arena.slots.size next.arena.size := by
  cases change with
  | insert value row =>
      obtain ⟨result, inserted, performed⟩ := bind_eq_ok.mp performed
      cases performed
      exact (grows_insert balanced inserted).slots
  | remove row =>
      obtain ⟨⟨held, result⟩, removed, performed⟩ := bind_eq_ok.mp performed
      cases performed
      exact ((shrinks_remove balanced removed).grows balanced).slots
  | removeValue value =>
      obtain ⟨⟨count, result⟩, removed, performed⟩ := bind_eq_ok.mp performed
      cases performed
      exact ((shrinks_removeValue balanced removed).grows balanced).slots
  | clear =>
      cases performed
      rfl

theorem Tracked.grows_after (tracked : index.Tracked) (change : Change K) :
    Yields (fun later => later.Tracked ∧ later.arena.slots.size =
      if change.clears then later.size else max index.arena.slots.size later.size)
      (index.after change) := by
  obtain ⟨chains, tracks⟩ := tracked
  obtain ⟨answer, next, nextChains, performed, -, nextTracks, -⟩ := tracks.step change
  have slots := slots_of_perform tracks.holds.balanced performed
  rw [nextTracks.size_eq] at slots
  rw [after, performed]
  exact ⟨⟨nextChains, nextTracks⟩, slots⟩

end Changes

end ValueIndex

/-- Whatever is done with a new arena up to the first stale slot, it has as many slots as were ever
occupied at the same time since it was last cleared. Whatever is changed about a new index, no slot
is stale, and its arena has as many slots as the index ever had rows since it was last cleared. -/
theorem slots_eq_peak {K : Type} [DecidableEq K] [Hashable K] (acts : List Arena.Act)
    (changes : List (ValueIndex.Change K)) :
    Arena.Yields (fun arena => ∃ past,
      statesSince Arena.after Arena.Act.clears [] .empty acts = .ok (arena :: past) ∧
        Peaked (·.slots.size) Arena.size arena past) (Arena.empty.afterAll acts) ∧
    ∃ index past, (ValueIndex.empty : ValueIndex K).run changes = .ok index ∧
      statesSince ValueIndex.after ValueIndex.Change.clears [] .empty changes =
        .ok (index :: past) ∧
      Peaked (·.arena.slots.size) ValueIndex.size index past := by
  constructor
  · rw [Arena.afterAll_eq_foldlM]
    have peaked : Peaked (·.slots.size) Arena.size .empty [] := rfl
    apply yields_peaked _ acts Arena.balanced_empty peaked
    exact fun arena act balanced => balanced.grows_after act
  · obtain ⟨index, chains, ran, -⟩ := ValueIndex.tracks_empty.run changes
    have tracked : (ValueIndex.empty : ValueIndex K).Tracked := ⟨_, ValueIndex.tracks_empty⟩
    have peaked : Peaked (·.arena.slots.size) ValueIndex.size (.empty : ValueIndex K) [] := rfl
    have stepGrows (index : ValueIndex K) change (tracked : index.Tracked) :=
      tracked.grows_after change
    have yields := yields_peaked stepGrows changes tracked peaked
    rw [← ValueIndex.run_eq_foldlM] at yields
    obtain ⟨past, states, peaked⟩ := yields.answer ran
    exact ⟨index, past, ran, states, peaked⟩

end TableFeed
