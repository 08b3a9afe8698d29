import GroupedRows.Change
import GroupedRows.GroupPath
import GroupedRows.Signal

/-!
# Notices and their receivers

A source and its tables announce what happens to them. Each kind of notice has a
signal of its own, and the receivers connected to a signal are of three kinds: the
journal of the session, a table that depends on its source, and a listener that acts.
-/

namespace GroupedRows

/-- Tables are numbered in the order in which they are made. -/
abbrev TableId := Nat

/-- The signals of a session: two of the source and four of each table. -/
inductive Channel where
  | items
  | binding
  | grouped (table : TableId)
  | expanded (table : TableId)
  | collapsed (table : TableId)
  | layout (table : TableId)
  deriving DecidableEq, Repr

/-- The table to which a signal belongs. -/
def Channel.table? : Channel → Option TableId
  | items | binding => none
  | grouped c | expanded c | collapsed c | layout c => some c

/-- What is announced on a signal. -/
inductive Notice where
  /-- The items of the source have changed. -/
  | items (change : ItemChange)
  /-- The source has become active or inactive. -/
  | binding (state : Binding)
  /-- A table has been grouped by these properties. -/
  | grouped (table : TableId) (properties : List String)
  /-- A group has been opened. -/
  | expanded (table : TableId) (path : GroupPath)
  /-- A group has been closed. -/
  | collapsed (table : TableId) (path : GroupPath)
  /-- The visible rows of a table may be others than before. -/
  | layout (table : TableId)
  deriving DecidableEq

/-- The signal of a notice. -/
def Notice.channel : Notice → Channel
  | items _ => .items
  | binding _ => .binding
  | grouped c _ => .grouped c
  | expanded c _ => .expanded c
  | collapsed c _ => .collapsed c
  | layout c => .layout c

/-- Who is connected to a signal. -/
inductive Receiver where
  /-- The journal of the session. -/
  | journal
  /-- A table, which becomes stale. -/
  | table (c : TableId)
  /-- The listener with a number. -/
  | listener (number : Nat)
  deriving DecidableEq, Repr

end GroupedRows
