/-!
# Ranges of characters

A property of characters is given as a list of closed ranges of code points, in
increasing order. A character has the property when one of the ranges holds its
code point.
-/

namespace MiniPL.Text

/-- Closed ranges of code points: the least and the greatest of each. -/
abbrev Ranges := List (Nat × Nat)

namespace Ranges

/-- Whether one of the ranges holds the code point of `c`. -/
def contains (ranges : Ranges) (c : Char) : Bool :=
  ranges.any fun range => range.1 ≤ c.toNat && c.toNat ≤ range.2

/-- Membership, read off the ranges. -/
theorem contains_iff {ranges : Ranges} {c : Char} :
    ranges.contains c ↔ ∃ range ∈ ranges, range.1 ≤ c.toNat ∧ c.toNat ≤ range.2 := by
  simp [contains]

end Ranges

end MiniPL.Text
