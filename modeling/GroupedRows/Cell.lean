/-!
# Cells that notice change

A cell holds one value and tells whether a write changed it, so that its owner can
announce real changes only.
-/

namespace GroupedRows

/-- A stored value. -/
structure Cell (α : Type) where
  value : α
  deriving DecidableEq, Repr

namespace Cell

variable {α : Type} [DecidableEq α]

/-- Stores a value and tells whether it differs from the old one. -/
def set (c : Cell α) (v : α) : Bool × Cell α :=
  if c.value = v then (false, c) else (true, ⟨v⟩)

/-- Stores a value and returns the old one if it differs. -/
def replace (c : Cell α) (v : α) : Option α × Cell α :=
  if c.value = v then (none, c) else (some c.value, ⟨v⟩)

/-- Stores a value without telling. -/
def setQuietly (_ : Cell α) (v : α) : Cell α := ⟨v⟩

/-- The cell with its content, which `write` renders. -/
def inspect {α : Type} (write : α → String) (c : Cell α) : String :=
  "Property \x7b value: " ++ write c.value ++ " \x7d"

/-- Whatever is written is then stored. -/
@[simp] theorem value_set (c : Cell α) (v : α) : (c.set v).2.value = v := by
  unfold set
  split
  · rename_i h
    exact h
  · rfl

/-- A write reports a change exactly when it makes one. -/
theorem set_changed_iff (c : Cell α) (v : α) : (c.set v).1 = true ↔ c.value ≠ v := by
  unfold set
  split <;> simp_all

/-- Replacing stores what setting stores. -/
theorem replace_snd (c : Cell α) (v : α) : (c.replace v).2 = (c.set v).2 := by
  unfold replace set
  split <;> rfl

end Cell

end GroupedRows
