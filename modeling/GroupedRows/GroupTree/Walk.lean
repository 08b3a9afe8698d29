import GroupedRows.GroupTree.Basic

/-!
# Walks through a group tree

Downward walks visit a group before the groups below it, upward walks follow the
parents of an item's deepest group. No walk is longer than the tree has levels, which
bounds the recursion.
-/

namespace GroupedRows.GroupTree

/-- Items of a group and of the `levels` levels from it on: its own, then those of its children. -/
def itemsWithin (t : GroupTree) : Nat → GroupPath → List ItemId
  | 0, _ => []
  | levels + 1, k => t.ownItems k ++ (t.children k).flatMap (t.itemsWithin levels)

/-- Items at any level below a path. -/
def allItems (t : GroupTree) (k : GroupPath) : List ItemId := t.itemsWithin t.levels k

/-- A group, then the groups below it, for `levels` levels. -/
def groupsWithin (t : GroupTree) : Nat → GroupPath → List GroupPath
  | 0, _ => []
  | levels + 1, k => k :: (t.children k).flatMap (t.groupsWithin levels)

/-- Every group, each before the groups below it. -/
def allGroups (t : GroupTree) : List GroupPath := t.roots.flatMap (t.groupsWithin t.levels)

/-- A group and the groups above it, deepest first, for at most `levels` steps. -/
def upward (t : GroupTree) : Nat → Option GroupPath → List GroupPath
  | 0, _ => []
  | _ + 1, none => []
  | levels + 1, some k => k :: t.upward levels ((t.node? k).bind GroupNode.parent)

/-- The groups around an item, root first. -/
def pathOf (t : GroupTree) (id : ItemId) : List GroupPath :=
  (t.upward t.levels (t.leafOf? id)).reverse

end GroupedRows.GroupTree
