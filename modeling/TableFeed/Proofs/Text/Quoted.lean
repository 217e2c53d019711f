import TableFeed.Text.Quoted

/-!
# Where quoted values end, and what they say

The main statements say that reading a quoted text undoes writing it, and that the text found behind
an opening quotation mark is a value written with all its quotation marks doubled, up to the first
quotation mark that pairs with no other.
-/

namespace TableFeed.Quoted

theorem halve_double (value : List Char) : halve (double value) = value := by
  induction value with
  | nil => rfl
  | cons character later ih =>
      rw [double]
      split
      · rename_i mark
        rw [halve, ih, mark]
      · rename_i different
        rw [halve, ih]
        rintro _ rfl
        exact fun _ => different rfl

theorem unquote_quote (value : List Char) : unquote (quote value) = value := by
  have opened : quote value = quoteMark :: (double value ++ [quoteMark]) := rfl
  have inner : inner? (quote value) = some (double value) := by
    rw [opened, inner?, List.getLast?_append]
    simp
  rw [unquote, inner, Option.getD_some, halve_double]

theorem closed?_cons {character : Char} (different : character ≠ quoteMark) (later : List Char) :
    closed? (character :: later) = (closed? later).map (character :: ·) := by
  rw [closed?]
  · rintro _ rfl
    exact fun _ => different rfl
  · exact different

/-- A doubled value is found up to the quotation mark behind it, if no other one follows. -/
theorem closed?_double (value : List Char) {later : List Char}
    (ends : later.head? ≠ some quoteMark) :
    closed? (double value ++ quoteMark :: later) = some (double value ++ [quoteMark]) := by
  induction value with
  | nil =>
      rw [double, List.nil_append, closed?]
      · rfl
      · intro rest paired
        apply ends
        rw [paired, List.head?_cons]
  | cons character others ih =>
      rw [double]
      split
      · rw [List.cons_append, List.cons_append, closed?, ih]
        rfl
      · rename_i different
        rw [List.cons_append, closed?_cons different, ih]
        rfl

/-- What is found behind an opening quotation mark is a doubled value with a quotation mark behind
it, and no other one follows. -/
theorem doubled_of_closed? {text part : List Char} (found : closed? text = some part) :
    ∃ value later, text = double value ++ quoteMark :: later ∧
      part = double value ++ [quoteMark] ∧ later.head? ≠ some quoteMark := by
  fun_induction closed? text generalizing part with
  | case1 later ih =>
      obtain ⟨inner, innerFound, rfl⟩ := Option.map_eq_some_iff.mp found
      obtain ⟨value, rest, rfl, rfl, ends⟩ := ih innerFound
      exact ⟨quoteMark :: value, rest, by simp [double], by simp [double], ends⟩
  | case2 later unpaired =>
      obtain rfl := Option.some.inj found
      refine ⟨[], later, rfl, rfl, ?_⟩
      intro paired
      obtain ⟨rest, rfl⟩ := List.head?_eq_some_iff.mp paired
      exact unpaired rest rfl
  | case3 character later _ different ih =>
      obtain ⟨inner, innerFound, rfl⟩ := Option.map_eq_some_iff.mp found
      obtain ⟨value, rest, rfl, rfl, ends⟩ := ih innerFound
      have unlike : character ≠ quoteMark := different
      exact ⟨character :: value, rest, by simp [double, unlike], by simp [double, unlike], ends⟩
  | case4 => nomatch found

end TableFeed.Quoted
