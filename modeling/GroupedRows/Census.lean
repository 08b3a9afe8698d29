/-!
# Comparing the members of a list

Members are told apart by their indexes: which of them occur for the first time, and
which others stand in some relation to each.
-/

namespace GroupedRows.Census

variable {α : Type}

/-- The indexes, from `next` on, of the members with a property. -/
def indexesFrom (holds : α → Bool) : Nat → List α → List Nat
  | _, [] => []
  | next, a :: rest =>
    if holds a then next :: indexesFrom holds (next + 1) rest else indexesFrom holds (next + 1) rest

/-- The ascending indexes of the members with a property. -/
def indexes (holds : α → Bool) (members : List α) : List Nat := indexesFrom holds 0 members

/-- For each member the indexes of those to which it is related. -/
def related (relation : α → α → Bool) (members : List α) : List (List Nat) :=
  members.map fun a => indexes (relation a) members

/-- For each member, behind some that have been seen, whether it is a new one. -/
def freshAfter [DecidableEq α] : List α → List α → List Bool
  | _, [] => []
  | seen, a :: rest => (!seen.contains a) :: freshAfter (a :: seen) rest

/-- For each member whether it differs from all before it. -/
def fresh [DecidableEq α] (members : List α) : List Bool := freshAfter [] members

/-- For each member the indexes of the members equal to it. -/
def equal [DecidableEq α] (members : List α) : List (List Nat) := related (· = ·) members

end GroupedRows.Census
