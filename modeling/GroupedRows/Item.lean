import GroupedRows.OrderedMap
import GroupedRows.Value

/-!
# Items

An item is an identifier with named property values. Integer and text identifiers
are never equal, and a property that is not listed has no value at all.
-/

namespace GroupedRows

/-- Identifier of an item. -/
inductive ItemId where
  | number (n : Int)
  | name (s : String)
  deriving DecidableEq, Repr

/-- A number in decimal digits, a name in quotes. -/
def ItemId.inspect : ItemId → String
  | number n => toString n
  | name s => Text.quoted s

/-- An identifier with the item's properties. -/
structure Item where
  id : ItemId
  properties : OrderedMap String Value

namespace Item

instance : DecidableEq Item := fun a b =>
  decidable_of_iff (a.id = b.id ∧ a.properties = b.properties) (by cases a; cases b; simp)

/-- The value of a property, if the item carries it. -/
def property? (i : Item) (name : String) : Option Value := i.properties.get? name

/-- A change of one item: values to set, then properties to drop, then another identifier. -/
structure Edit where
  set : List (String × Value) := []
  drop : List String := []
  rename : Option ItemId := none

/-- Applies the parts of an edit in their order. -/
def edit (i : Item) (e : Edit) : Item where
  id := e.rename.getD i.id
  properties := e.drop.foldl (fun m p => m.erase p) (i.properties.insertAll e.set)

end Item

end GroupedRows
