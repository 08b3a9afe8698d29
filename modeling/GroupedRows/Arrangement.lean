import GroupedRows.GroupTree.Build
import GroupedRows.Snapshot

/-!
# Arrangements

An arrangement is what a table shows: a group tree, the open groups, and perhaps a
snapshot of the visible rows. Every change of the first two drops the snapshot, and
the next look takes a new one.
-/

namespace GroupedRows

/-- A tree with its open groups and a snapshot that is still good. -/
structure Arrangement where
  tree : GroupTree
  expansion : Expansion
  snapshot : Option Snapshot

namespace Arrangement

/-- The first arrangement of a tree, with every group open or none. -/
def start (tree : GroupTree) (expandAll : Bool) : Arrangement :=
  ⟨tree, if expandAll && tree.hasGroups then .all tree else .empty, none⟩

/-- Records of the first arrangement. -/
def startLog (tree : GroupTree) (expandAll : Bool) : List LogRecord :=
  tree.buildLog ++ if expandAll && tree.hasGroups then Expansion.allLog tree else []

/-- Records of dropping the snapshot, silent if there is none. -/
def dropLog (a : Arrangement) : List LogRecord :=
  if a.snapshot.isSome then [.entry .snapshotDropped] else []

/-- The open groups after a new tree has come in: those that it still has if they are to be kept,
then all if that is asked for. -/
def carried (a : Arrangement) (tree : GroupTree) (restore expandAll : Bool) : Expansion :=
  if expandAll && tree.hasGroups then .all tree
  else if restore then a.expansion.restrict tree else .empty

/-- The arrangement of a new tree. -/
def regroup (a : Arrangement) (tree : GroupTree) (restore expandAll : Bool) : Arrangement :=
  ⟨tree, a.carried tree restore expandAll, none⟩

/-- Records of bringing in a new tree. -/
def regroupLog (a : Arrangement) (tree : GroupTree) (restore expandAll : Bool) : List LogRecord :=
  (Span.timed .regroup).around <|
    tree.buildLog ++
    (if restore then a.expansion.restrictLog tree else []) ++
    (if expandAll && tree.hasGroups then Expansion.allLog tree else []) ++
    a.dropLog ++
    [.entry (.regrouped tree.properties tree.groupCount (a.carried tree restore expandAll).size)]

/-- Whether a path names an open group of the tree. -/
def isExpanded (a : Arrangement) (k : GroupPath) : Bool :=
  a.tree.contains k && a.expansion.contains k

/-- Whether opening a path changes anything: it names a closed group. -/
def canExpand (a : Arrangement) (k : GroupPath) : Bool :=
  a.tree.contains k && !a.expansion.contains k

/-- Opens a group. -/
def expand (a : Arrangement) (k : GroupPath) : Arrangement :=
  ⟨a.tree, a.expansion.expand k, none⟩

/-- Closes a group. -/
def collapse (a : Arrangement) (k : GroupPath) : Arrangement :=
  ⟨a.tree, a.expansion.collapse k, none⟩

/-- Opens every group. -/
def expandAll (a : Arrangement) : Arrangement := ⟨a.tree, .all a.tree, none⟩

/-- Closes every group. -/
def collapseAll (a : Arrangement) : Arrangement := ⟨a.tree, .empty, none⟩

/-- Forgets the snapshot. -/
def drop (a : Arrangement) : Arrangement := { a with snapshot := none }

/-- The snapshot that is still good, or else a new one. -/
def look (a : Arrangement) : Snapshot := a.snapshot.getD (.flatten a.tree a.expansion)

/-- The arrangement with a good snapshot. -/
def looked (a : Arrangement) : Arrangement := { a with snapshot := some a.look }

/-- Records of a look; a good snapshot costs nothing. -/
def lookLog (a : Arrangement) : List LogRecord :=
  if a.snapshot.isSome then [] else Snapshot.flattenLog a.tree a.expansion

end Arrangement

end GroupedRows
