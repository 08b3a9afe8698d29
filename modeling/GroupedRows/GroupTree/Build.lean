import GroupedRows.GroupTree.Basic
import GroupedRows.Log.Record

/-!
# Building a group tree

The items enter the tree one by one. An item walks down the properties, makes the
groups that are missing, is counted in each and is held by the deepest.
-/

namespace GroupedRows

/-- How items are asked for the value of a property. -/
abbrev Lookup := ItemId → String → Option Value

namespace GroupTree

/-- Adds a group without content below its parent, behind its siblings. -/
def addGroup (t : GroupTree) (parent : Option GroupPath) (path : GroupPath) : GroupTree :=
  let nodes := t.nodes.insert path ⟨path, parent, [], [], 0⟩
  match parent with
  | none => { t with nodes := nodes, roots := t.roots ++ [path] }
  | some p =>
    { t with nodes := nodes.modify p fun n => { n with children := n.children ++ [path] } }

/-- An item passes through a group, which is made if it is missing. -/
def visit (t : GroupTree) (parent : Option GroupPath) (path : GroupPath) : GroupTree :=
  let t := if t.contains path then t else t.addGroup parent path
  { t with nodes := t.nodes.modify path fun n => { n with count := n.count + 1 } }

/-- An item walks down the remaining properties from the group it has reached. -/
def descend (value : String → Value) : List String → Option GroupPath → GroupTree →
    Option GroupPath × GroupTree
  | [], reached, t => (reached, t)
  | property :: rest, reached, t =>
    let path := GroupPath.below reached property (value property)
    descend value rest (some path) (t.visit reached path)

/-- The group that an item has reached last holds it; a later item of the same identifier
replaces the earlier in the map of leaves. -/
def hold (t : GroupTree) (leaf : GroupPath) (id : ItemId) : GroupTree :=
  { t with
    nodes := t.nodes.modify leaf fun n => { n with ownItems := n.ownItems ++ [id] }
    leaves := t.leaves.insert id leaf }

/-- Enters one item; a property that it does not carry has the absent value. -/
def place (lookup : Lookup) (t : GroupTree) (id : ItemId) : GroupTree :=
  let r := descend (fun property => (lookup id property).getD .absent) t.properties none t
  let t := match r.1 with
    | none => r.2
    | some leaf => r.2.hold leaf id
  { t with items := t.items ++ [id] }

/-- The tree of a sequence of items. -/
def build (items : List ItemId) (properties : List String) (lookup : Lookup) : GroupTree :=
  items.foldl (place lookup) (start properties)

/-- Records of building a tree. -/
def buildLog (t : GroupTree) : List LogRecord :=
  (Span.timed .build).around [.entry (.treeBuilt t.items.length t.groupCount t.levels)]

end GroupTree

end GroupedRows
