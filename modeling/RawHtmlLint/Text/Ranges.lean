/-!
# Sets of characters as ranges

A Unicode property is a list of ranges of code points.
-/

namespace RawHtmlLint.Text

/-- The character lies in one of the ranges, both ends included. -/
def inRanges (ranges : List (Nat × Nat)) (c : Char) : Bool :=
  ranges.any fun r => r.1 ≤ c.toNat && c.toNat ≤ r.2

end RawHtmlLint.Text
