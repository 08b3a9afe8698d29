import GroupedRows.Item
import GroupedRows.OrderedMap

/-!
# Item stores

A store is a list of items with a map from identifiers to positions. Every operation
but the change of an item in place rebuilds or extends the map, so it stays the inverse
of the order as long as changes in place keep the identifier.
-/

namespace GroupedRows

/-- Items in order, and where the item of an identifier stands. -/
structure ItemStore where
  items : List Item
  positions : OrderedMap ItemId Nat

namespace ItemStore

/-- No items. -/
def empty : ItemStore := ⟨[], .empty⟩

/-- Positions of items from `next` on; a later item of the same identifier wins. -/
def index : Nat → OrderedMap ItemId Nat → List Item → OrderedMap ItemId Nat
  | _, m, [] => m
  | next, m, i :: rest => index (next + 1) (m.insert i.id next) rest

/-- The store of a list of items, with all positions noted anew. -/
def reindexed (items : List Item) : ItemStore := ⟨items, index 0 .empty items⟩

/-- Whether an identifier has a position. -/
def contains (s : ItemStore) (id : ItemId) : Bool := s.positions.contains id

/-- The item of an identifier. -/
def get? (s : ItemStore) (id : ItemId) : Option Item :=
  (s.positions.get? id).bind fun i => s.items[i]?

/-- Identifiers in order. -/
def ids (s : ItemStore) : List ItemId := s.items.map Item.id

/-- Number of items. -/
def size (s : ItemStore) : Nat := s.items.length

/-- The value of a property of an item. -/
def value? (s : ItemStore) (id : ItemId) (property : String) : Option Value :=
  (s.get? id).bind fun i => i.property? property

/-- Appends an item. -/
def push (s : ItemStore) (i : Item) : ItemStore :=
  ⟨s.items ++ [i], s.positions.insert i.id s.items.length⟩

/-- Appends an item unless its identifier is taken. -/
def pushNew (s : ItemStore) (i : Item) : ItemStore := if s.contains i.id then s else s.push i

/-- The store of the items that are the first of their identifier. -/
def ofItems (items : List Item) : ItemStore := items.foldl pushNew empty

/-- Number of items that are left out because their identifier came before. -/
def droppedCount (items : List Item) : Nat := items.length - (ofItems items).items.length

/-- Positions of items from `next` on; the first item of an identifier wins. -/
def indexFirst : Nat → OrderedMap ItemId Nat → List Item → OrderedMap ItemId Nat
  | _, m, [] => m
  | next, m, i :: rest =>
    indexFirst (next + 1) (if m.contains i.id then m else m.insert i.id next) rest

/-- The store of all items, in which an identifier names the first of its items. -/
def ofAll (items : List Item) : ItemStore := ⟨items, indexFirst 0 .empty items⟩

/-- The position at which an item is inserted: not behind the end. -/
def clamp (s : ItemStore) (position : Nat) : Nat := min position s.items.length

/-- Inserts an item. -/
def insert (s : ItemStore) (position : Nat) (i : Item) : ItemStore :=
  reindexed (s.items.insertIdx (s.clamp position) i)

/-- Removes the item at a position. -/
def removeAt (s : ItemStore) (position : Nat) : ItemStore :=
  reindexed (s.items.eraseIdx position)

/-- Changes the item at a position, leaving the noted positions as they are. -/
def modifyAt (s : ItemStore) (position : Nat) (change : Item → Item) : ItemStore :=
  ⟨s.items.modify position change, s.positions⟩

end ItemStore

end GroupedRows
