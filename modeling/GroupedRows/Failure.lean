import GroupedRows.Row

/-!
# Failures

Navigation never fails: a missing neighbour is no failure. Failures are left for
questions about groups that are none, positions past the end, and unreadable settings.
-/

namespace GroupedRows

/-- Why a question has no answer. -/
inductive Failure where
  /-- The path names no group of the tree. -/
  | unknownGroup (path : GroupPath)
  /-- The row is an item. -/
  | notAGroup (row : Row)
  /-- There are only `count` visible rows. -/
  | outOfRange (position count : Nat)
  /-- The settings cannot be read. -/
  | settings
  deriving DecidableEq

/-- The wording of a failure. -/
def Failure.message : Failure → String
  | unknownGroup path => "Unknown group '" ++ path.label ++ "'"
  | notAGroup row => "Row '" ++ row.inspect ++ "' is not a group"
  | outOfRange position count =>
    "Row position " ++ toString position ++ " out of range (visible rows: " ++
      toString count ++ ")"
  | settings => "Invalid container configuration"

end GroupedRows
