/-!
# Character ranges

A class of characters is given by the ranges of its code points, in ascending order.
-/

namespace RevisionGraph.Text

/-- Whether `n` lies in one of the ranges, which are sorted and given by their first and last
members. -/
def inRanges (n : Nat) : List (Nat × Nat) → Bool
  | [] => false
  | (first, last) :: rest => first ≤ n && (n ≤ last || inRanges n rest)

end RevisionGraph.Text
