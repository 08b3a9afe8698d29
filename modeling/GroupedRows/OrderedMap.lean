/-!
# Finite maps that remember insertion order

An `OrderedMap` is a list of entries with distinct keys. Inserting a known key
replaces its value in place, so the order of keys is the order in which they
first appeared; every operation is described by what it does to `get?` and `keys`.
-/

namespace GroupedRows

/-- Entries with distinct keys, in the order in which the keys first appeared. -/
structure OrderedMap (α β : Type) where
  /-- Key and value of each entry. -/
  entries : List (α × β)
  /-- No key has two entries. -/
  nodup : (entries.map Prod.fst).Nodup := by simp

namespace OrderedMap

variable {α β : Type}

instance [DecidableEq α] [DecidableEq β] : DecidableEq (OrderedMap α β) := fun m n =>
  decidable_of_iff (m.entries = n.entries) (by cases m; cases n; simp)

/-- The map without entries. -/
def empty : OrderedMap α β := ⟨[], by simp⟩

/-- The keys, oldest first. -/
def keys (m : OrderedMap α β) : List α := m.entries.map Prod.fst

/-- Number of entries. -/
def size (m : OrderedMap α β) : Nat := m.entries.length

@[simp] theorem keys_empty : (empty : OrderedMap α β).keys = [] := rfl

@[simp] theorem length_keys (m : OrderedMap α β) : m.keys.length = m.size := by
  simp [keys, size]

/-- No key is listed twice. -/
theorem nodup_keys (m : OrderedMap α β) : m.keys.Nodup := m.nodup

variable [DecidableEq α]

/-- Value of the first entry with the key in a list of entries. -/
def find (k : α) : List (α × β) → Option β
  | [] => none
  | (a, b) :: rest => if a = k then some b else find k rest

/-- Entries with the key's value replaced, or with a new entry at the end. -/
def put (k : α) (v : β) : List (α × β) → List (α × β)
  | [] => [(k, v)]
  | (a, b) :: rest => if a = k then (k, v) :: rest else (a, b) :: put k v rest

/-- Replacing keeps the keys, and a new entry adds its key at the end. -/
theorem map_fst_put (k : α) (v : β) (l : List (α × β)) :
    (put k v l).map Prod.fst =
      if k ∈ l.map Prod.fst then l.map Prod.fst else l.map Prod.fst ++ [k] := by
  induction l with
  | nil => simp [put]
  | cons e rest ih =>
    obtain ⟨a, b⟩ := e
    by_cases h : a = k
    · simp [put, h]
    · have hk : k ≠ a := fun e => h e.symm
      by_cases hm : k ∈ rest.map Prod.fst
      · simp only [put, h, if_false, List.map_cons, ih, hm, if_true, List.mem_cons, or_true]
      · simp only [put, h, if_false, List.map_cons, ih, hm, List.mem_cons, hk, or_self,
          List.cons_append]

/-- Putting never makes a second entry for a key. -/
theorem nodup_put (k : α) (v : β) {l : List (α × β)} (h : (l.map Prod.fst).Nodup) :
    ((put k v l).map Prod.fst).Nodup := by
  rw [map_fst_put]
  split
  · exact h
  · rename_i hk
    refine List.nodup_append.2 ⟨h, by simp, fun a ha b hb e => hk ?_⟩
    simp only [List.mem_singleton] at hb
    exact hb ▸ e ▸ ha

/-- The value stored under the key. -/
def get? (m : OrderedMap α β) (k : α) : Option β := find k m.entries

/-- Whether the key has an entry. -/
def contains (m : OrderedMap α β) (k : α) : Bool := (m.get? k).isSome

/-- Stores a value: in place for a known key, at the end for a new one. -/
def insert (m : OrderedMap α β) (k : α) (v : β) : OrderedMap α β :=
  ⟨put k v m.entries, nodup_put k v m.nodup⟩

/-- Changes the value under the key; without an entry nothing happens. -/
def modify (m : OrderedMap α β) (k : α) (f : β → β) : OrderedMap α β :=
  ⟨m.entries.map fun e => if e.1 = k then (e.1, f e.2) else e, by
    have h : (m.entries.map fun e => if e.1 = k then (e.1, f e.2) else e).map Prod.fst
        = m.entries.map Prod.fst := by
      rw [List.map_map]
      refine List.map_congr_left fun e _ => ?_
      by_cases he : e.1 = k <;> simp [he]
    rw [h]
    exact m.nodup⟩

/-- Removes the entry of the key, if there is one. -/
def erase (m : OrderedMap α β) (k : α) : OrderedMap α β :=
  ⟨m.entries.filter fun e => e.1 ≠ k, (List.filter_sublist.map Prod.fst).nodup m.nodup⟩

/-- Stores the entries of a list one after the other, so the last value of a key stays. -/
def insertAll (m : OrderedMap α β) (l : List (α × β)) : OrderedMap α β :=
  l.foldl (fun m e => m.insert e.1 e.2) m

/-- The map of a list of entries, in which the last value of a key stays. -/
def ofList (l : List (α × β)) : OrderedMap α β := empty.insertAll l

@[simp] theorem get?_empty (k : α) : (empty : OrderedMap α β).get? k = none := rfl

/-- In a list of entries, storing a value changes what is found at its key and nowhere else. -/
theorem find_put (k j : α) (v : β) (l : List (α × β)) :
    find j (put k v l) = if k = j then some v else find j l := by
  induction l with
  | nil => rfl
  | cons e rest ih =>
    obtain ⟨a, b⟩ := e
    by_cases h : a = k
    · subst h
      by_cases hj : a = j <;> simp [put, find, hj]
    · by_cases hj : a = j
      · subst hj
        simp [put, find, h, Ne.symm h]
      · simp [put, find, h, hj, ih]

/-- Reading after a store gives the new value at its key and the old one elsewhere. -/
theorem get?_insert (m : OrderedMap α β) (k j : α) (v : β) :
    (m.insert k v).get? j = if k = j then some v else m.get? j :=
  find_put k j v m.entries

@[simp] theorem get?_insert_self (m : OrderedMap α β) (k : α) (v : β) :
    (m.insert k v).get? k = some v := by
  simp [get?_insert]

/-- An entry is found in a list exactly if its key is listed. -/
theorem find_isSome (k : α) (l : List (α × β)) :
    (find k l).isSome = true ↔ k ∈ l.map Prod.fst := by
  induction l with
  | nil => simp [find]
  | cons e rest ih =>
    obtain ⟨a, b⟩ := e
    by_cases h : a = k
    · simp [find, h]
    · simp [find, h, ih, Ne.symm h]

/-- A key has an entry exactly when it is listed. -/
theorem contains_iff (m : OrderedMap α β) (k : α) : m.contains k = true ↔ k ∈ m.keys :=
  find_isSome k m.entries

/-- Changing the values of one key in a list changes what is found there and nowhere else. -/
theorem find_map_entry (k j : α) (f : β → β) (l : List (α × β)) :
    find j (l.map fun e => if e.1 = k then (e.1, f e.2) else e)
      = if k = j then (find j l).map f else find j l := by
  induction l with
  | nil => simp [find]
  | cons e rest ih =>
    obtain ⟨a, b⟩ := e
    by_cases hk : a = k
    · subst hk
      by_cases hj : a = j
      · simp [find, hj]
      · rw [if_neg hj] at ih ⊢
        simp [find, hj, ih]
    · by_cases hj : a = j
      · subst hj
        simp [find, hk, Ne.symm hk]
      · simp [find, hk, hj, ih]

/-- Reading after a change gives the changed value at its key and the old one elsewhere. -/
theorem get?_modify (m : OrderedMap α β) (k j : α) (f : β → β) :
    (m.modify k f).get? j = if k = j then (m.get? j).map f else m.get? j :=
  find_map_entry k j f m.entries

/-- A change of a value keeps the keys. -/
@[simp] theorem keys_modify (m : OrderedMap α β) (k : α) (f : β → β) :
    (m.modify k f).keys = m.keys := by
  simp only [keys, modify, List.map_map]
  refine List.map_congr_left fun e _ => ?_
  by_cases he : e.1 = k <;> simp [he]

/-- A change of a value adds no key and takes none away. -/
@[simp] theorem contains_modify (m : OrderedMap α β) (k j : α) (f : β → β) :
    (m.modify k f).contains j = m.contains j := by
  rw [Bool.eq_iff_iff, contains_iff, contains_iff, keys_modify]

end OrderedMap

end GroupedRows
