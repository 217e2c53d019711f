/-!
# Sets of characters as tables of ranges

Unicode properties are given as tables of code point ranges in ascending order. Membership walks
the table and stops at the first range that ends at or after the character.
-/

namespace TableFeed

/-- A set of characters, as ascending disjoint closed ranges of code points. -/
structure CharSet where
  ranges : List (Nat × Nat)

namespace CharSet

/-- Whether a code point lies in one of the given ascending ranges. -/
def inRanges (codePoint : Nat) : List (Nat × Nat) → Bool
  | [] => false
  | (first, last) :: later =>
      if codePoint ≤ last then first ≤ codePoint else inRanges codePoint later

/-- Whether a character belongs to the set. -/
def contains (set : CharSet) (character : Char) : Bool :=
  inRanges character.toNat set.ranges

end CharSet

end TableFeed
