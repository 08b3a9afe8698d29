import GroupedRows.Text.Attaching
import GroupedRows.Text.Blank
import GroupedRows.Text.Unassigned

/-!
# Characters that do not show on their own

A character does not show if it is blank, if it would change the look of the one
before it, or if there is no such character.
-/

namespace GroupedRows.Text

/-- Whether a character would be lost or would change its neighbour if it were written as it is.
The printable ASCII characters are settled without the tables. -/
def isHidden (c : Char) : Bool :=
  let code := c.toNat
  if 32 ≤ code ∧ code < 127 then false
  else blank.covers code || attaching.covers code || unassigned.covers code

end GroupedRows.Text
