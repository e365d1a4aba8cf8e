/-!
# Sets of characters given by intervals

A property of characters is stored as a list of closed intervals of code points, disjoint and in
increasing order, so that a search ends at the first interval that starts beyond the character.
-/

namespace DoubleDispatch.Text

/-- Closed intervals of code points, disjoint and increasing. -/
structure CodeRanges where
  intervals : List (Nat × Nat)

namespace CodeRanges

/-- Whether one of the intervals holds `n`; the search stops at the first that starts beyond it. -/
def holds (n : Nat) : List (Nat × Nat) → Bool
  | [] => false
  | (first, last) :: rest => first ≤ n && (n ≤ last || holds n rest)

/-- Whether the set contains a character. -/
def contains (ranges : CodeRanges) (c : Char) : Bool := holds c.toNat ranges.intervals

end CodeRanges

end DoubleDispatch.Text
