import GroupedRows.Session.Emission

/-!
# Steps on a table

Before a table is used, a pending change of its source is applied. A step that may
rearrange the rows ends with a notice of the layout, after more special notices.
-/

namespace GroupedRows.Session

open Call

/-- Builds the tree of a table anew from the present items. -/
def rebuild (c : TableId) (properties : List String) (expandAll : Bool) (s : Session) : Session :=
  match s.table? c with
  | none => s
  | some t =>
    (s.write (t.rebuildLog s.source properties expandAll)).modifyTable c fun t =>
      t.rebuilt s.source properties expandAll

/-- Builds the tree anew by the active properties and announces the layout. -/
def refresh (c : TableId) : Call Unit := do
  match (← read).table? c with
  | none => return
  | some t =>
    change (rebuild c t.properties false)
    send (.layout c)

/-- Applies a pending change of the source, if there is one. -/
def sync (c : TableId) : Call Unit := do
  if ((← read).table? c).any Table.stale then refresh c

/-- Records of a list of grouping properties, which should not repeat. -/
def repeatLog (properties : List String) : List LogRecord :=
  if properties.Nodup then [] else [.entry (.repeatedProperty properties)]

/-- Groups a table by a list of properties, none of which is needed. -/
def groupBy (c : TableId) (properties : List String) : Call Unit := do
  match (← read).table? c with
  | none => return
  | some t =>
    change fun s =>
      (s.write (repeatLog properties)).rebuild c properties t.settings.expandOnGrouping
    send (.grouped c properties)
    send (.layout c)

/-- Replaces what a table shows by a change that costs the snapshot. -/
def rearrange (c : TableId) (f : Arrangement → Arrangement) (s : Session) : Session :=
  match s.table? c with
  | none => s
  | some t => (s.write t.arrangement.dropLog).arrange c f

/-- Opens a group of the table, if there is a closed one of this path. -/
def expand (c : TableId) (k : GroupPath) : Call Bool := do
  sync c
  if ((← read).table? c).any fun t => t.arrangement.canExpand k then
    change (rearrange c (·.expand k))
    send (.expanded c k)
    send (.layout c)
    return true
  else return false

/-- Closes a group of the table, if there is an open one of this path. -/
def collapse (c : TableId) (k : GroupPath) : Call Bool := do
  sync c
  if ((← read).table? c).any fun t => t.arrangement.isExpanded k then
    change (rearrange c (·.collapse k))
    send (.collapsed c k)
    send (.layout c)
    return true
  else return false

/-- Changes all groups at once; without grouping nothing happens. -/
def rearrangeAll (c : TableId) (f : Arrangement → Arrangement) (records : Table → List LogRecord) :
    Call Unit := do
  sync c
  match (← read).table? c with
  | none => return
  | some t =>
    if t.tree.hasGroups then
      change fun s => (s.write (records t)).rearrange c f
      send (.layout c)

/-- Opens every group of the table. -/
def expandAll (c : TableId) : Call Unit :=
  rearrangeAll c Arrangement.expandAll fun t => Expansion.allLog t.tree

/-- Closes every group of the table. -/
def collapseAll (c : TableId) : Call Unit := rearrangeAll c Arrangement.collapseAll fun _ => []

/-- The tree of a table after a pending change; that of a missing table is empty. -/
def tree (s : Session) (c : TableId) : GroupTree := ((s.table? c).map Table.tree).getD .empty

/-- Opens the groups of a path one after the other and tells whether any was closed. -/
def expandEach (c : TableId) : List GroupPath → Call Bool
  | [] => return false
  | k :: rest => do
    let changed ← expand c k
    let others ← expandEach c rest
    return changed || others

/-- Opens every group around an item, so that the item is visible. -/
def expandToItem (c : TableId) (id : ItemId) : Call Bool := do
  sync c
  expandEach c (((← read).tree c).pathOf id)

/-- Runs a step on a table. -/
def runTable (c : TableId) (step : TableStep) : Call Answer :=
  match step with
  | .groupBy properties => do groupBy c properties; return .done
  | .refresh => do refresh c; return .done
  | .expandAll => do expandAll c; return .done
  | .collapseAll => do collapseAll c; return .done
  | .expand k => return .flag (← expand c k)
  | .collapse k => return .flag (← collapse c k)
  | .expandToItem id => return .flag (← expandToItem c id)

end GroupedRows.Session
