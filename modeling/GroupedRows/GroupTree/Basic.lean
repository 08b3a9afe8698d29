import GroupedRows.GroupPath
import GroupedRows.Item
import GroupedRows.OrderedMap

/-!
# Group trees

A group tree keeps its nodes in an arena under their paths. A node refers to its
parent and its children by path, so every walk is a sequence of look-ups, and a
path that names no node reads as a group without content.
-/

namespace GroupedRows

/-- One group: where it stands in the tree, and what it holds. -/
structure GroupNode where
  path : GroupPath
  parent : Option GroupPath
  /-- Groups one level below, in the order in which they first occurred. -/
  children : List GroupPath
  /-- Items held directly, which only deepest groups have. -/
  ownItems : List ItemId
  /-- Number of items at any level below. -/
  count : Nat
  deriving DecidableEq

/-- Items partitioned by their values of a list of properties. -/
structure GroupTree where
  /-- Grouping properties, outermost first. -/
  properties : List String
  /-- All items in source order. -/
  items : List ItemId
  /-- Groups of the outermost property, in the order in which they first occurred. -/
  roots : List GroupPath
  nodes : OrderedMap GroupPath GroupNode
  /-- The deepest group of each item. -/
  leaves : OrderedMap ItemId GroupPath
  deriving DecidableEq

namespace GroupTree

/-- The tree of no items and no properties. -/
def empty : GroupTree := ⟨[], [], [], .empty, .empty⟩

/-- The tree before the first item. -/
def start (properties : List String) : GroupTree := { empty with properties := properties }

/-- Whether items are grouped at all. -/
def hasGroups (t : GroupTree) : Bool := !t.properties.isEmpty

/-- Number of levels. -/
def levels (t : GroupTree) : Nat := t.properties.length

/-- The node under a path. -/
def node? (t : GroupTree) (k : GroupPath) : Option GroupNode := t.nodes.get? k

/-- Whether a path names a group. -/
def contains (t : GroupTree) (k : GroupPath) : Bool := t.nodes.contains k

/-- Groups directly below a path. -/
def children (t : GroupTree) (k : GroupPath) : List GroupPath :=
  ((t.node? k).map GroupNode.children).getD []

/-- Whether there are groups directly below a path. -/
def hasChildren (t : GroupTree) (k : GroupPath) : Bool := !(t.children k).isEmpty

/-- Items held directly by a group. -/
def ownItems (t : GroupTree) (k : GroupPath) : List ItemId :=
  ((t.node? k).map GroupNode.ownItems).getD []

/-- Number of items below a path, as counted while the tree was built. -/
def itemCount (t : GroupTree) (k : GroupPath) : Nat :=
  ((t.node? k).map GroupNode.count).getD 0

/-- Number of groups at any level. -/
def groupCount (t : GroupTree) : Nat := t.nodes.size

/-- The deepest group of an item. -/
def leafOf? (t : GroupTree) (id : ItemId) : Option GroupPath := t.leaves.get? id

/-- A path has a node exactly when it names a group. -/
theorem node?_isSome (t : GroupTree) (k : GroupPath) : (t.node? k).isSome = t.contains k := rfl

end GroupTree

end GroupedRows
