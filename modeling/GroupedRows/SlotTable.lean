/-!
# Slot tables

A slot table keeps values in numbered slots. A new value takes the slot that was
freed last, or a new slot behind all others; reading goes through the slots in
ascending number. Each slot counts its uses in a version that grows when it is
freed and when it is taken again, so an identifier never names a later value.
-/

namespace GroupedRows

/-- Slot number and version under which a value was stored. -/
structure SlotId where
  slot : Nat
  version : Nat
  deriving DecidableEq, Repr

/-- One slot: its version and, while it is taken, its value. -/
structure Slot (α : Type) where
  version : Nat
  content : Option α
  deriving Repr

/-- All slots by number, and the numbers of the free ones, last freed first. -/
structure SlotTable (α : Type) where
  slots : List (Slot α)
  free : List Nat
  deriving Repr

namespace SlotTable

variable {α : Type}

/-- The table without slots. -/
def empty : SlotTable α := ⟨[], []⟩

/-- The stored values in ascending slot number. -/
def values (t : SlotTable α) : List α := t.slots.filterMap Slot.content

/-- Number of stored values. -/
def size (t : SlotTable α) : Nat := t.values.length

/-- The version of a slot, zero before its first use. -/
def versionAt (t : SlotTable α) (n : Nat) : Nat := (t.slots[n]?.map Slot.version).getD 0

/-- The slot that the next value takes. -/
def nextSlot (t : SlotTable α) : Nat := t.free.headD t.slots.length

/-- The identifier that the next value gets. -/
def nextId (t : SlotTable α) : SlotId := ⟨t.nextSlot, t.versionAt t.nextSlot + 1⟩

/-- Stores a value in the slot freed last, or in a new one. -/
def insert (t : SlotTable α) (a : α) : SlotTable α :=
  match t.free with
  | [] => ⟨t.slots ++ [⟨1, some a⟩], []⟩
  | n :: rest => ⟨t.slots.set n ⟨t.versionAt n + 1, some a⟩, rest⟩

/-- The value that an identifier still names. -/
def get? (t : SlotTable α) (id : SlotId) : Option α :=
  t.slots[id.slot]?.bind fun s => if s.version = id.version then s.content else none

/-- Frees the slot that an identifier still names; otherwise nothing happens. -/
def remove (t : SlotTable α) (id : SlotId) : SlotTable α :=
  if (t.get? id).isSome then
    ⟨t.slots.set id.slot ⟨id.version + 1, none⟩, id.slot :: t.free⟩
  else t

/-- Numbers of the taken slots, ascending. -/
def taken (t : SlotTable α) : List Nat :=
  (List.range t.slots.length).filter fun n => (t.slots[n]?.bind Slot.content).isSome

/-- A taken slot gives up its value; a free one stays as it is. -/
def Slot.vacate (s : Slot α) : Slot α :=
  if s.content.isSome then ⟨s.version + 1, none⟩ else s

/-- Frees the taken slots in ascending number, so the highest is taken next. -/
def clear (t : SlotTable α) : SlotTable α :=
  ⟨t.slots.map Slot.vacate, t.taken.reverse ++ t.free⟩

@[simp] theorem values_empty : (empty : SlotTable α).values = [] := rfl

/-- Nothing is left after clearing. -/
@[simp] theorem values_clear (t : SlotTable α) : t.clear.values = [] := by
  simp only [values, clear, List.filterMap_map, List.filterMap_eq_nil_iff]
  intro s _
  cases h : s.content <;> simp [Slot.vacate, h]

end SlotTable

end GroupedRows
