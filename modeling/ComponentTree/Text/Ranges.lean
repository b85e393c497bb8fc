/-!
# Sets of code points

A character class of the Unicode standard is kept as the ascending list of its code point ranges,
first and last point included.
-/

namespace ComponentTree.Text

/-- A list of code point ranges, ascending and apart. -/
abbrev Ranges := List (Nat × Nat)

/-- Whether a code point lies in one of the ranges. The list ascends, so the search ends at the
first range that starts beyond the point. -/
def Ranges.holds : Ranges → Nat → Bool
  | [], _ => false
  | (first, last) :: rest, point =>
    if point < first then false else point ≤ last || Ranges.holds rest point

end ComponentTree.Text
