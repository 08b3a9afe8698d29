import GroupedRows.Change
import GroupedRows.Item

/-!
# Log records

What happens inside an operation is logged as records: single entries, and spans that
are entered and left. A record holds the facts; its text is made elsewhere.
-/

namespace GroupedRows

/-- A pass over the data whose duration is of interest. -/
inductive Pass where
  | build
  | flatten
  | regroup
  deriving DecidableEq, Repr

/-- A stretch of work between entering and leaving. -/
inductive Span where
  | timed (pass : Pass)
  | emission
  | flattening
  deriving DecidableEq, Repr

/-- A single fact. -/
inductive LogEntry where
  /-- An emission reaches so many receivers. -/
  | emitting (receivers : Nat)
  /-- An emission is held back. -/
  | emissionBlocked
  /-- Items with an identifier that came before were left out. -/
  | duplicatesDropped (count : Nat)
  /-- An item was not appended because its identifier is taken. -/
  | pushRejected (id : ItemId)
  /-- An item was not inserted because its identifier is taken. -/
  | insertRejected (id : ItemId)
  /-- The source announces a change. -/
  | itemsChanged (change : ItemChange)
  /-- The source takes another binding. -/
  | bindingChanged (binding : Binding)
  /-- A table hears of a change. -/
  | tableHeardItems (change : ItemChange)
  /-- A table hears of another binding. -/
  | tableHeardBinding (binding : Binding)
  /-- A list of grouping properties names one twice. -/
  | repeatedProperty (properties : List String)
  | treeBuilt (items groups depth : Nat)
  | expansionRestored (kept dropped : Nat)
  | allExpanded (count : Nat)
  | snapshotDropped
  | rowsFlattened (rows : Nat)
  | rowsRebuilt (rows : Nat)
  | regrouped (properties : List String) (groups expanded : Nat)
  deriving Repr

/-- One record of the log. -/
inductive LogRecord where
  | entry (e : LogEntry)
  | enter (s : Span)
  | leave (s : Span)
  deriving Repr

/-- Records of a span around others. -/
def Span.around (s : Span) (inner : List LogRecord) : List LogRecord :=
  .enter s :: inner ++ [.leave s]

end GroupedRows
