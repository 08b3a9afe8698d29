/-!
# Sets of characters by ranges of code points

A property of characters is tabulated by the ranges of code points that have it, in
ascending order and with both ends included.
-/

namespace GroupedRows.Text

/-- Ranges of code points, ends included. -/
abbrev Ranges := List (Nat × Nat)

/-- Whether a code point lies in one of the ranges. -/
def Ranges.covers (ranges : Ranges) (code : Nat) : Bool :=
  ranges.any fun r => r.1 ≤ code ∧ code ≤ r.2

end GroupedRows.Text
