import GroupedRows.Arrangement
import GroupedRows.Settings
import GroupedRows.Source

/-!
# Tables

A table shows the items of a source in an arrangement. A notice of the source only
makes the table stale: the arrangement follows when the table is used next.
-/

namespace GroupedRows

/-- A table with its signals and the places that it has in those of its source. -/
structure Table where
  settings : Settings
  arrangement : Arrangement
  /-- The source has changed since the tree was built. -/
  stale : Bool
  /-- Under which the table hears of changes of the items. -/
  itemsLink : SlotId
  /-- Under which the table hears of changes of the binding. -/
  bindingLink : SlotId
  grouped : Signal Receiver
  expanded : Signal Receiver
  collapsed : Signal Receiver
  layout : Signal Receiver

namespace Table

/-- The active grouping properties. -/
def properties (t : Table) : List String := t.arrangement.tree.properties

/-- The tree in which questions about groups are answered. -/
def tree (t : Table) : GroupTree := t.arrangement.tree

/-- The table with the tree of its source's present items. -/
def rebuilt (t : Table) (source : Source) (properties : List String) (expandAll : Bool) : Table :=
  { t with
    arrangement :=
      t.arrangement.regroup (source.tree properties) t.settings.restoreExpansion expandAll
    stale := false }

/-- Records of rebuilding. -/
def rebuildLog (t : Table) (source : Source) (properties : List String) (expandAll : Bool) :
    List LogRecord :=
  t.arrangement.regroupLog (source.tree properties) t.settings.restoreExpansion expandAll

end Table

/-- A table as the session keeps it. A closed table is disconnected from its source once no call
on it is running any more. -/
structure TableEntry where
  table : Table
  isOpen : Bool
  /-- Number of calls on the table that are running. -/
  calls : Nat

end GroupedRows
