import GroupedRows.Cell
import GroupedRows.GroupTree.Recipe
import GroupedRows.Notice

/-!
# Sources

A source holds the items that tables show. It is active or inactive, and it has one
signal for changes of the items and one for changes of its binding.
-/

namespace GroupedRows

/-- Items, binding and signals of a source. -/
structure Source where
  store : ItemStore
  binding : Cell Binding
  itemsChanged : Signal Receiver
  bindingChanged : Signal Receiver

namespace Source

/-- An active source to which nobody is connected. -/
def ofStore (store : ItemStore) : Source := ⟨store, ⟨.active⟩, .empty, .empty⟩

/-- Whether tables over the source show any rows. -/
def isActive (s : Source) : Bool := s.binding.value = .active

/-- The tree of the present items under a list of properties. -/
def tree (s : Source) (properties : List String) : GroupTree := s.store.tree properties

/-- The items that identifiers name, leaving out those that name none. -/
def itemsOf (s : Source) (ids : List ItemId) : List Item := ids.filterMap s.store.get?

end Source

end GroupedRows
