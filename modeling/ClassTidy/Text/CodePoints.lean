/-!
# Sets of characters by code point

Properties of characters are given as tables: ascending ranges of code points with both ends
included.
-/

namespace ClassTidy.Text

/-- A set of code points, as ranges with both ends included. -/
abbrev CodePoints := List (Nat × Nat)

/-- Whether the code point of the character lies in one of the ranges. -/
def CodePoints.contains (ranges : CodePoints) (c : Char) : Bool :=
  ranges.any fun (lo, hi) => lo ≤ c.toNat && c.toNat ≤ hi

end ClassTidy.Text
