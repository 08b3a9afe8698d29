import GroupedRows.GroupTree.Build
import GroupedRows.ItemStore

/-!
# Where a group tree comes from

A tree is made of the items of a store, whose values are looked up by identifier, or
it is the empty tree, which is made of nothing and leaves no trace in the log.
-/

namespace GroupedRows

/-- The tree of the items of a store under a list of properties. -/
def ItemStore.tree (s : ItemStore) (properties : List String) : GroupTree :=
  .build s.ids properties s.value?

namespace GroupTree

/-- What a tree is made of. -/
inductive Recipe where
  | empty
  /-- Items, repeated identifiers included: every such item reads as the first of them. -/
  | grouped (items : List Item) (properties : List String)

namespace Recipe

/-- The tree of a recipe. -/
def make : Recipe → GroupTree
  | empty => .empty
  | grouped items properties => (ItemStore.ofAll items).tree properties

/-- Records of making it. -/
def log : Recipe → List LogRecord
  | empty => []
  | r => r.make.buildLog

end Recipe

end GroupTree

end GroupedRows
