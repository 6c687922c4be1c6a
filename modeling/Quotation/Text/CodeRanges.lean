/-!
# Sets of characters as ranges

A property of characters is given by the closed ranges of code points that have
it, in ascending order.
-/

namespace Quotation.Text

/-- Closed ranges of code points. -/
abbrev CodeRanges := List (Nat × Nat)

/-- Whether the code point lies in one of the ranges. -/
def CodeRanges.contains (ranges : CodeRanges) (code : Nat) : Bool :=
  ranges.any fun r => r.1 ≤ code && code ≤ r.2

/-- How many code points lie in ascending ranges. -/
def CodeRanges.count (ranges : CodeRanges) : Nat :=
  ranges.foldl (fun n r => n + (r.2 + 1 - r.1)) 0

/-- Ascending, with at least one code point between two ranges. -/
def CodeRanges.ascending : CodeRanges → Bool
  | [] => true
  | [r] => r.1 ≤ r.2
  | r :: s :: rest => r.1 ≤ r.2 && r.2 + 1 < s.1 && ascending (s :: rest)

end Quotation.Text
