import GroupedRows.Log.Record

/-!
# Written log records

Every record is written with a level, a target that names the part of the library that
it comes from, and named fields. An entry has a message as well, and a span a name
under which it is entered and left.
-/

namespace GroupedRows

/-- How important a record is. -/
inductive LogLevel where
  | trace
  | debug
  | info
  | warn
  deriving DecidableEq, Repr

/-- The name of a level. -/
def LogLevel.name : LogLevel → String
  | trace => "TRACE"
  | debug => "DEBUG"
  | info => "INFO"
  | warn => "WARN"

/-- The parts of the library that log. -/
inductive LogTarget where
  | signals
  | tables
  | sources
  | trees
  | expansions
  | snapshots
  | containers
  | timing
  deriving DecidableEq, Repr

/-- The name of a target. -/
def LogTarget.name : LogTarget → String
  | signals => "horizon_grouptable_core::signal"
  | tables => "horizon_grouptable"
  | sources => "horizon_grouptable::source"
  | trees => "horizon_grouptable::index"
  | expansions => "horizon_grouptable::expansion"
  | snapshots => "horizon_grouptable::visible"
  | containers => "horizon_grouptable::container"
  | timing => "horizon_grouptable::perf"

/-- The kind of a change with its numbers. -/
def ItemChange.inspect : ItemChange → String
  | added position count => "Added" ++ ranged position count
  | removed position count => "Removed" ++ ranged position count
  | refreshed => "Refreshed"
  | cleared => "Cleared"
where
  /-- A range of positions. -/
  ranged (position count : Nat) : String :=
    " \x7b position: " ++ toString position ++ ", count: " ++ toString count ++ " \x7d"

/-- The name of a binding. -/
def Binding.inspect : Binding → String
  | active => "Active"
  | inactive => "Inactive"

/-- The operation that a pass is timed as. -/
def Pass.operation : Pass → String
  | build => "horizon_grouptable::index_build"
  | flatten => "horizon_grouptable::flatten"
  | regroup => "horizon_grouptable::regroup"

namespace Span

/-- The name under which a span is entered and left. -/
def name : Span → String
  | timed _ => "perf"
  | emission => "emit"
  | flattening => "flatten"

/-- The level of a span. -/
def level : Span → LogLevel
  | timed _ => .info
  | emission | flattening => .trace

/-- The target of a span. -/
def target : Span → LogTarget
  | timed _ => .timing
  | emission => .signals
  | flattening => .snapshots

/-- The fields of a span. -/
def fields : Span → List (String × String)
  | timed pass => [("operation", pass.operation)]
  | emission | flattening => []

end Span

namespace LogEntry

/-- The level of an entry: what happens at every use is traced, what changes a table or refuses a
call is for debugging, and only a doubtful call is worth a warning. -/
def level : LogEntry → LogLevel
  | repeatedProperty _ => .warn
  | duplicatesDropped _ | pushRejected _ | insertRejected _ | bindingChanged _ | treeBuilt ..
  | expansionRestored .. | rowsRebuilt _ | regrouped .. => .debug
  | emitting _ | emissionBlocked | itemsChanged _ | tableHeardItems _ | tableHeardBinding _
  | allExpanded _ | snapshotDropped | rowsFlattened _ => .trace

/-- The target of an entry. -/
def target : LogEntry → LogTarget
  | emitting _ | emissionBlocked => .signals
  | duplicatesDropped _ | repeatedProperty _ => .tables
  | pushRejected _ | insertRejected _ | itemsChanged _ | bindingChanged _ => .sources
  | treeBuilt .. => .trees
  | expansionRestored .. | allExpanded _ => .expansions
  | snapshotDropped | rowsFlattened _ => .snapshots
  | tableHeardItems _ | tableHeardBinding _ | rowsRebuilt _ | regrouped .. => .containers

/-- What an entry says. -/
def message : LogEntry → String
  | emitting _ => "emitting signal"
  | emissionBlocked => "signal blocked, skipping emit"
  | duplicatesDropped _ => "duplicate item ids dropped"
  | pushRejected _ => "push rejected: duplicate id"
  | insertRejected _ => "insert rejected: duplicate id"
  | itemsChanged _ => "item set changed"
  | bindingChanged _ => "source binding state changed"
  | tableHeardItems _ => "source item set changed"
  | tableHeardBinding _ => "source state changed"
  | repeatedProperty _ => "grouping property listed more than once"
  | treeBuilt .. => "built group index"
  | expansionRestored .. => "restored expansion state"
  | allExpanded _ => "expanded all groups"
  | snapshotDropped => "visible order cache invalidated"
  | rowsFlattened _ => "flattened visible rows"
  | rowsRebuilt _ => "visible rows rebuilt"
  | regrouped .. => "regrouped"

/-- The fields of an entry. -/
def fields : LogEntry → List (String × String)
  | emitting receivers => [("connection_count", toString receivers)]
  | emissionBlocked | snapshotDropped => []
  | duplicatesDropped count => [("dropped", toString count)]
  | pushRejected id | insertRejected id => [("id", id.inspect)]
  | itemsChanged change | tableHeardItems change => [("change", change.inspect)]
  | bindingChanged state | tableHeardBinding state => [("state", state.inspect)]
  | repeatedProperty properties => [("properties", Text.quotedList properties)]
  | treeBuilt items groups depth =>
    [("items", toString items), ("groups", toString groups), ("depth", toString depth)]
  | expansionRestored kept dropped => [("kept", toString kept), ("dropped", toString dropped)]
  | allExpanded count => [("expanded", toString count)]
  | rowsFlattened rows | rowsRebuilt rows => [("rows", toString rows)]
  | regrouped properties groups expanded =>
    [("properties", Text.quotedList properties), ("groups", toString groups),
      ("expanded", toString expanded)]

end LogEntry

end GroupedRows
