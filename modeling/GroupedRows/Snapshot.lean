import GroupedRows.Expansion
import GroupedRows.Row

/-!
# Snapshots of the visible rows

A snapshot lists the visible rows and knows where each first stands. Every outermost
group is visible; what stands inside a group is visible while the group is open: the
groups below it, or in a deepest group its items. Without grouping the rows are the items.
-/

namespace GroupedRows

/-- A sequence of rows with the first position of each. -/
structure Snapshot where
  rows : List Row
  positions : OrderedMap Row Nat
  deriving DecidableEq

namespace Snapshot

/-- Notes the positions of rows from `next` on, unless they are known. -/
def note : Nat → OrderedMap Row Nat → List Row → OrderedMap Row Nat
  | _, m, [] => m
  | next, m, r :: rest => note (next + 1) (if m.contains r then m else m.insert r next) rest

/-- The snapshot of a sequence of rows. -/
def ofRows (rows : List Row) : Snapshot := ⟨rows, note 0 .empty rows⟩

/-- Nothing is visible. -/
def empty : Snapshot := ofRows []

/-- Visible rows strictly inside a group, for the `levels` levels from it on. -/
def rowsWithin (t : GroupTree) (e : Expansion) : Nat → GroupPath → List Row
  | 0, _ => []
  | levels + 1, k =>
    if !e.contains k then []
    else if t.hasChildren k then
      (t.children k).flatMap fun c => .group c :: rowsWithin t e levels c
    else (t.ownItems k).map .item

/-- All visible rows of a tree. -/
def visibleRows (t : GroupTree) (e : Expansion) : List Row :=
  if t.hasGroups then t.roots.flatMap fun r => .group r :: rowsWithin t e t.levels r
  else t.items.map .item

/-- The snapshot of the visible rows. -/
def flatten (t : GroupTree) (e : Expansion) : Snapshot := ofRows (visibleRows t e)

/-- Records of taking a snapshot; the number of rows is of interest only with grouping. -/
def flattenLog (t : GroupTree) (e : Expansion) : List LogRecord :=
  Span.flattening.around <| (Span.timed .flatten).around <|
    if t.hasGroups then [.entry (.rowsFlattened (visibleRows t e).length)] else []

/-- Number of rows. -/
def size (s : Snapshot) : Nat := s.rows.length

/-- The row at a position. -/
def get? (s : Snapshot) (position : Nat) : Option Row := s.rows[position]?

/-- The first row. -/
def first? (s : Snapshot) : Option Row := s.rows.head?

/-- The last row. -/
def last? (s : Snapshot) : Option Row := s.rows.getLast?

/-- Where a row first stands. -/
def position? (s : Snapshot) (r : Row) : Option Nat := s.positions.get? r

/-- The row behind the first place of a row. -/
def next? (s : Snapshot) (r : Row) : Option Row :=
  (s.position? r).bind fun i => s.get? (i + 1)

/-- The row before the first place of a row. -/
def previous? (s : Snapshot) (r : Row) : Option Row :=
  (s.position? r).bind fun i => if i = 0 then none else s.get? (i - 1)

/-- Whether a row is the first. -/
def isFirst (s : Snapshot) (r : Row) : Bool := s.first? = some r

/-- Whether a row is the last. -/
def isLast (s : Snapshot) (r : Row) : Bool := s.last? = some r

@[simp] theorem rows_ofRows (rows : List Row) : (ofRows rows).rows = rows := rfl

@[simp] theorem rows_empty : empty.rows = [] := rfl

end Snapshot

end GroupedRows
