/-!
# What a source announces

A source announces changes of its items, and when it becomes active or inactive.
-/

namespace GroupedRows

/-- A change of the items of a source. -/
inductive ItemChange where
  /-- Items were inserted from `position` on. -/
  | added (position count : Nat)
  /-- Items were removed from `position` on. -/
  | removed (position count : Nat)
  /-- Items were replaced or changed in place. -/
  | refreshed
  /-- All items were removed. -/
  | cleared
  deriving DecidableEq, Repr

/-- Whether the items of a source have a meaning at present. -/
inductive Binding where
  | active
  | inactive
  deriving DecidableEq, Repr

end GroupedRows
