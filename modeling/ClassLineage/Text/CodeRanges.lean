/-!
# Sets of characters as ranges of code points

A property of characters is kept as the list of the ranges of code points that
have it, in increasing order.

## Main definitions

* `CodeRanges` — closed ranges of code points.
* `CodeRanges.contains` — a code point lies in one of the ranges.
-/

namespace ClassLineage
namespace Text

/-- Closed ranges of code points, in increasing order. -/
abbrev CodeRanges := List (Nat × Nat)

/-- The code point lies in one of the ranges. -/
def CodeRanges.contains (ranges : CodeRanges) (n : Nat) : Bool :=
  ranges.any fun r => r.1 ≤ n && n ≤ r.2

end Text
end ClassLineage
