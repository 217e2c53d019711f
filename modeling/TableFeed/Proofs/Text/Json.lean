import TableFeed.Proofs.Text.Escapes

/-!
# JSON text tells its value

The first character of a JSON value tells whether it is null, a string, a list or an object, and
what stands between the brackets tells the items. The main statement says that different values are
written as different texts.
-/

namespace TableFeed

/-- Some entries with a separator between them and another mark behind the last one tell what they
are and where they end. -/
theorem intercalate_unique {α : Type} {write : α → List Char} {mark close : Char}
    {separator rest others : List Char} {entries otherEntries : List α} (differ : mark ≠ close)
    (unique : ∀ entry ∈ entries, ∀ ⦃other rest others⦄,
      write entry ++ rest = write other ++ others → entry = other ∧ rest = others)
    (occupied : entries ≠ []) (otherOccupied : otherEntries ≠ [])
    (same : (mark :: separator).intercalate (entries.map write) ++ close :: rest =
      (mark :: separator).intercalate (otherEntries.map write) ++ close :: others) :
    entries = otherEntries ∧ rest = others := by
  induction entries generalizing otherEntries with
  | nil => exact (occupied rfl).elim
  | cons entry entries ih =>
      obtain ⟨entryUnique, entriesUnique⟩ := List.forall_mem_cons.mp unique
      cases otherEntries with
      | nil => exact (otherOccupied rfl).elim
      | cons other otherEntries =>
          cases entries with
          | nil =>
              cases otherEntries with
              | nil =>
                  simp only [List.map_cons, List.map_nil, List.intercalate_singleton] at same
                  obtain ⟨rfl, behind⟩ := entryUnique same
                  exact ⟨rfl, (List.cons.inj behind).2⟩
              | cons second otherEntries =>
                  simp only [List.map_cons, List.map_nil, List.intercalate_singleton,
                    List.intercalate_cons_cons, List.append_assoc] at same
                  obtain ⟨-, behind⟩ := entryUnique same
                  exact (differ (List.cons.inj behind).1.symm).elim
          | cons second entries =>
              cases otherEntries with
              | nil =>
                  simp only [List.map_cons, List.map_nil, List.intercalate_singleton,
                    List.intercalate_cons_cons, List.append_assoc] at same
                  obtain ⟨-, behind⟩ := entryUnique same
                  exact (differ (List.cons.inj behind).1).elim
              | cons otherSecond otherEntries =>
                  simp only [List.map_cons, List.intercalate_cons_cons, List.append_assoc] at same
                  obtain ⟨rfl, behind⟩ := entryUnique same
                  have further := List.append_cancel_left behind
                  obtain ⟨sameEntries, sameRest⟩ :=
                    ih entriesUnique (List.cons_ne_nil _ _) (List.cons_ne_nil _ _) further
                  exact ⟨congrArg (entry :: ·) sameEntries, sameRest⟩

namespace JsonValue

/-- The character with which the text of a value begins. -/
def initial : JsonValue → Char
  | null => 'n'
  | text _ => '"'
  | list _ => '['
  | object _ => '\x7b'

theorem head?_spread (margin : String) (value : JsonValue) (rest : List Char) :
    ((value.spread margin).toList ++ rest).head? = some value.initial := by
  cases value with
  | null => simp [spread, initial]
  | text value => simp [spread, string, initial]
  | list items => cases items <;> simp [spread, initial]
  | object members => cases members <;> simp [spread, initial]

/-- Some entries between brackets. Each of them is on lines of its own. -/
def bracketed {α : Type} (opening closing : Char) (margin : String) (write : α → List Char) :
    List α → List Char
  | [] => [opening, closing]
  | entries => opening :: '\n' :: [',', '\n'].intercalate (entries.map write) ++
      '\n' :: (margin.toList ++ [closing])

theorem bracketed_unique {α : Type} {write : α → List Char} {opening closing : Char}
    {margin : String} {rest others : List Char} {entries otherEntries : List α}
    (sameLine : closing ≠ '\n')
    (unique : ∀ entry ∈ entries, ∀ ⦃other rest others⦄,
      write entry ++ rest = write other ++ others → entry = other ∧ rest = others)
    (same : bracketed opening closing margin write entries ++ rest =
      bracketed opening closing margin write otherEntries ++ others) :
    entries = otherEntries ∧ rest = others := by
  cases entries with
  | nil =>
      cases otherEntries with
      | nil => simpa [bracketed] using same
      | cons other otherEntries =>
          obtain ⟨sameClosing, -⟩ : closing = '\n' ∧ _ := by simpa [bracketed] using same
          exact (sameLine sameClosing).elim
  | cons entry entries =>
      cases otherEntries with
      | nil =>
          obtain ⟨sameClosing, -⟩ : '\n' = closing ∧ _ := by simpa [bracketed] using same
          exact (sameLine sameClosing.symm).elim
      | cons other otherEntries =>
          simp only [bracketed, List.cons_append, List.append_assoc, List.cons.injEq,
            true_and] at same
          obtain ⟨sameEntries, behind⟩ := intercalate_unique (by decide) unique
            (List.cons_ne_nil _ _) (List.cons_ne_nil _ _) same
          exact ⟨sameEntries, by simpa using behind⟩

theorem spread_list (margin : String) (items : List JsonValue) :
    ((list items).spread margin).toList = bracketed '[' ']' margin
      (fun item => (innerMargin margin ++ item.spread (innerMargin margin)).toList) items := by
  have between (margin : String) (items : List JsonValue) : (itemsSpread margin items).toList =
      [',', '\n'].intercalate (items.map fun item => (margin ++ item.spread margin).toList) := by
    induction items with
    | nil => rfl
    | cons item items ih =>
        cases items with
        | nil => simp [itemsSpread]
        | cons second items => simp [itemsSpread, ih]
  cases items with
  | nil => simp [spread, bracketed]
  | cons item items => simp [spread, bracketed, between]

theorem spread_object (margin : String) (members : List (String × JsonValue)) :
    ((object members).spread margin).toList = bracketed '\x7b' '\x7d' margin
      (fun member => (innerMargin margin ++ string member.1 ++ ": " ++
        member.2.spread (innerMargin margin)).toList) members := by
  have between (margin : String) (members : List (String × JsonValue)) :
      (membersSpread margin members).toList = [',', '\n'].intercalate (members.map fun member =>
        (margin ++ string member.1 ++ ": " ++ member.2.spread margin).toList) := by
    induction members with
    | nil => rfl
    | cons member members ih =>
        cases members with
        | nil => simp [membersSpread]
        | cons second members => simp [membersSpread, ih]
  cases members with
  | nil => simp [spread, bracketed]
  | cons member members => simp [spread, bracketed, between]

theorem initial_eq_of_spread {margin : String} {value other : JsonValue} {rest others : List Char}
    (same : (value.spread margin).toList ++ rest = (other.spread margin).toList ++ others) :
    value.initial = other.initial := by
  rw [← Option.some_inj, ← head?_spread margin value rest, same, head?_spread]

/-- A value that is spread over lines with a given margin tells where it ends. -/
theorem selfDelimiting_spread (margin : String) : ∀ value : JsonValue, ∀ ⦃other rest others⦄,
    (value.spread margin).toList ++ rest = (JsonValue.spread margin other).toList ++ others →
      value = other ∧ rest = others
  | null, other, rest, others, same => by
      have form := initial_eq_of_spread same
      cases other with
      | null => exact ⟨rfl, List.append_cancel_left same⟩
      | _ => simp [initial] at form
  | text value, other, rest, others, same => by
      have form := initial_eq_of_spread same
      cases other with
      | text other =>
          simp only [spread] at same
          obtain ⟨rfl, behind⟩ := selfDelimiting_string same
          exact ⟨rfl, behind⟩
      | _ => simp [initial] at form
  | list items, other, rest, others, same => by
      have form := initial_eq_of_spread same
      cases other with
      | list otherItems =>
          rw [spread_list, spread_list] at same
          have unique : ∀ item ∈ items, ∀ ⦃other rest others⦄,
              (innerMargin margin ++ item.spread (innerMargin margin)).toList ++ rest =
                (innerMargin margin ++ JsonValue.spread (innerMargin margin) other).toList ++
                  others → item = other ∧ rest = others := by
            intro item inside other rest others same
            simp only [String.toList_append, List.append_assoc] at same
            exact selfDelimiting_spread _ item (List.append_cancel_left same)
          obtain ⟨rfl, behind⟩ := bracketed_unique (by decide) unique same
          exact ⟨rfl, behind⟩
      | _ => simp [initial] at form
  | object members, other, rest, others, same => by
      have form := initial_eq_of_spread same
      cases other with
      | object otherMembers =>
          rw [spread_object, spread_object] at same
          have unique : ∀ member ∈ members, ∀ ⦃other rest others⦄,
              (innerMargin margin ++ string member.1 ++ ": " ++
                member.2.spread (innerMargin margin)).toList ++ rest =
              (innerMargin margin ++ string other.1 ++ ": " ++
                JsonValue.spread (innerMargin margin) other.2).toList ++ others →
              member = other ∧ rest = others := by
            rintro ⟨key, value⟩ inside ⟨otherKey, otherValue⟩ rest others same
            simp only [String.toList_append, List.append_assoc] at same
            obtain ⟨rfl, further⟩ := selfDelimiting_string (List.append_cancel_left same)
            obtain ⟨rfl, behind⟩ :=
              selfDelimiting_spread _ value (List.append_cancel_left further)
            exact ⟨rfl, behind⟩
          obtain ⟨rfl, behind⟩ := bracketed_unique (by decide) unique same
          exact ⟨rfl, behind⟩
      | _ => simp [initial] at form
termination_by value => sizeOf value
decreasing_by
  · have smaller := List.sizeOf_lt_of_mem inside
    simp only [list.sizeOf_spec]
    omega
  · have smaller := List.sizeOf_lt_of_mem inside
    simp only [Prod.mk.sizeOf_spec] at smaller
    simp only [object.sizeOf_spec]
    omega

/-- The text of a value tells the value. -/
theorem write_injective : Function.Injective write := by
  have delimits : SelfDelimiting fun value : JsonValue => (value.spread "").toList :=
    selfDelimiting_spread ""
  intro value other same
  exact delimits.injective (congrArg String.toList same)

end JsonValue

end TableFeed
