import GroupedRows.Failure
import GroupedRows.Session.Step

/-!
# Answers and events of a session

Every step has an answer, and the journal notes in order what was announced and what
listeners did.
-/

namespace GroupedRows

/-- What a walk notes about one row. -/
structure WalkMark where
  position : Option Nat
  isFirst : Bool
  isLast : Bool
  deriving DecidableEq, Repr

/-- The answer to a step. -/
inductive Answer where
  | done
  | flag (b : Bool)
  | count (n : Nat)
  | position (n : Option Nat)
  | item (i : Option Item)
  | items (l : List Item)
  | value (v : Option Value)
  | ids (l : List ItemId)
  | group (k : Option GroupPath)
  | groups (l : List GroupPath)
  | row (r : Option Row)
  | rows (l : List Row)
  | heldRows (l : Option (List Row))
  | text (s : String)
  | texts (l : List String)
  | settings (s : Settings)
  | contents (ids : List ItemId) (size : Nat) (binding : Binding)
  | walk (forward : List WalkMark) (backward : List Row)
  | failure (f : Failure)
  /-- The step needs a table that is not open. -/
  | noTable

/-- What the journal notes. -/
inductive Event where
  /-- A notice as it went out. -/
  | noted (notice : Notice)
  /-- A listener is called and will act. -/
  | heard (listener : String) (notice : Notice)
  /-- A step of a listener's script has been answered. -/
  | acted (listener : String) (step : Step) (answer : Answer)

end GroupedRows
