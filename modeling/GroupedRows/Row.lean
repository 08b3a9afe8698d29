import GroupedRows.GroupPath
import GroupedRows.Item

/-!
# Rows

One row of the visible sequence is either the header of a group or an item.
-/

namespace GroupedRows

/-- A group header or an item. -/
inductive Row where
  | group (path : GroupPath)
  | item (id : ItemId)
  deriving DecidableEq

namespace Row

/-- Whether the row is a group header. -/
def isGroup : Row → Bool
  | group _ => true
  | item _ => false

/-- The group of a header row. -/
def group? : Row → Option GroupPath
  | group path => some path
  | item _ => none

/-- The identifier of an item row. -/
def item? : Row → Option ItemId
  | group _ => none
  | item id => some id

/-- The kind of the row with what it names. -/
def inspect : Row → String
  | group path => "Group(" ++ path.inspect ++ ")"
  | item id => "Item(" ++ id.inspect ++ ")"

end Row

end GroupedRows
