/-!
# Classes of characters given by ranges

A property of characters that no formula describes is listed as the ranges of code points that have
it.  The ranges stand in ascending order, so the search ends at the first range above the character.
-/

namespace MakeOutline

/-- A first and a last code point, both included. -/
abbrev CharRange := Nat × Nat

def inRanges (c : Char) : List CharRange → Bool
  | [] => false
  | (first, last) :: ranges =>
    if c.toNat < first then false else c.toNat ≤ last || inRanges c ranges

end MakeOutline
