import GroupedRows.ItemStore

/-!
# The map of positions agrees with the order

In a store whose identifiers are distinct, the noted position of an identifier is where
a search from the front finds it. Every operation keeps this, the change of an item in
place as long as it keeps the identifier.
-/

namespace GroupedRows.ItemStore

/-- Identifiers are distinct, and each has the position at which it stands. -/
structure Indexed (s : ItemStore) : Prop where
  nodup : s.ids.Nodup
  position : ∀ id, s.positions.get? id = s.ids.findIdx? (· = id)

variable {s : ItemStore}

/-- The item of an identifier is found by a search. -/
theorem Indexed.get?_eq (h : s.Indexed) (id : ItemId) :
    s.get? id = s.items.find? (·.id = id) := by
  rw [get?, h.position, ids, List.findIdx?_map, List.find?_eq_bind_findIdx?_getElem?]
  rfl

/-- An identifier is known if some item has it. -/
theorem Indexed.contains_eq (h : s.Indexed) (id : ItemId) :
    s.contains id = s.items.any (·.id = id) := by
  rw [contains, OrderedMap.contains, h.position, ids, List.findIdx?_isSome, List.any_map]
  rfl

/-- Who has no position is no item's identifier. -/
theorem Indexed.not_mem_ids (h : s.Indexed) {id : ItemId} (hid : s.contains id = false) :
    id ∉ s.ids := by
  rw [h.contains_eq, List.any_eq_false] at hid
  intro hmem
  obtain ⟨i, hi, rfl⟩ := List.mem_map.1 hmem
  exact hid i hi (decide_eq_true rfl)

/-- An empty store is indexed. -/
theorem indexed_empty : empty.Indexed :=
  ⟨List.nodup_nil, fun _ => rfl⟩

/-- Noting positions anew finds each identifier of a list without repetitions where it stands. -/
theorem get?_index (items : List Item) (next : Nat) (m : OrderedMap ItemId Nat)
    (h : (items.map Item.id).Nodup) (id : ItemId) :
    (index next m items).get? id =
      (((items.map Item.id).findIdx? (· = id)).map (next + ·)).or (m.get? id) := by
  induction items generalizing next m with
  | nil => rfl
  | cons i rest ih =>
    rw [List.map_cons, List.nodup_cons] at h
    rw [index, ih _ _ h.2, OrderedMap.get?_insert, List.map_cons, List.findIdx?_cons]
    by_cases hi : i.id = id
    · have hnone : (rest.map Item.id).findIdx? (· = id) = none :=
        List.findIdx?_eq_none_iff.2 fun j hj => decide_eq_false fun e => h.1 (hi ▸ e ▸ hj)
      simp [hi, hnone]
    · simp only [hi, if_false, decide_false, Bool.false_eq_true, Option.map_map,
        Function.comp_def]
      simp only [Nat.add_assoc, Nat.add_comm 1]

/-- Noting all positions anew indexes items with distinct identifiers. -/
theorem indexed_reindexed {items : List Item} (h : (items.map Item.id).Nodup) :
    (reindexed items).Indexed where
  nodup := h
  position id := by
    change (index 0 .empty items).get? id = (items.map Item.id).findIdx? (· = id)
    rw [get?_index items 0 _ h]
    simp

/-- Whoever is pushed under a new identifier is noted at the end. -/
theorem Indexed.push (h : s.Indexed) {i : Item} (hi : s.contains i.id = false) :
    (s.push i).Indexed where
  nodup := by
    change ((s.items ++ [i]).map Item.id).Nodup
    rw [List.map_append]
    refine List.nodup_append.2 ⟨h.nodup, by simp, fun a ha b hb e => h.not_mem_ids hi ?_⟩
    obtain rfl := List.mem_singleton.1 hb
    exact e ▸ ha
  position id := by
    change (s.positions.insert i.id s.items.length).get? id =
      ((s.items ++ [i]).map Item.id).findIdx? (· = id)
    rw [OrderedMap.get?_insert, h.position, List.map_append, List.findIdx?_append]
    by_cases hid : i.id = id
    · have hnone : s.ids.findIdx? (· = id) = none :=
        List.findIdx?_eq_none_iff.2 fun j hj =>
          decide_eq_false fun e => h.not_mem_ids hi (hid ▸ e ▸ hj)
      rw [if_pos hid, show s.items.map Item.id = s.ids from rfl, hnone]
      simp [hid, ids]
    · simp [hid, ids]

/-- Pushing whoever is new keeps a store indexed. -/
theorem Indexed.pushNew (h : s.Indexed) (i : Item) : (s.pushNew i).Indexed := by
  unfold ItemStore.pushNew
  split
  · exact h
  · rename_i hi
    exact h.push (Bool.eq_false_iff.2 hi)

/-- Of some items the first of each identifier are indexed. -/
theorem indexed_ofItems (items : List Item) : (ofItems items).Indexed := by
  have hfold : ∀ (items : List Item) (s : ItemStore), s.Indexed →
      (items.foldl ItemStore.pushNew s).Indexed := by
    intro items
    induction items with
    | nil => exact fun s h => h
    | cons i rest ih => exact fun s h => ih _ (h.pushNew i)
  exact hfold items empty indexed_empty

/-- Inserting under a new identifier notes all positions anew. -/
theorem Indexed.insert (h : s.Indexed) {i : Item} (hi : s.contains i.id = false)
    (position : Nat) : (s.insert position i).Indexed := by
  have hperm : (s.items.insertIdx (s.clamp position) i).Perm (i :: s.items) :=
    List.perm_insertIdx i s.items (Nat.min_le_right _ _)
  exact indexed_reindexed
    ((hperm.map Item.id).nodup_iff.2 (List.nodup_cons.2 ⟨h.not_mem_ids hi, h.nodup⟩))

/-- Removing an item notes all positions anew. -/
theorem Indexed.removeAt (h : s.Indexed) (position : Nat) : (s.removeAt position).Indexed :=
  indexed_reindexed (((List.eraseIdx_sublist s.items position).map Item.id).nodup h.nodup)

/-- A change in place that keeps the identifier keeps all positions. -/
theorem Indexed.modifyAt (h : s.Indexed) {position : Nat} {change : Item → Item}
    (hchange : ∀ i, s.items[position]? = some i → (change i).id = i.id) :
    (s.modifyAt position change).Indexed := by
  have hids : (s.modifyAt position change).ids = s.ids := by
    refine List.ext_getElem? fun n => ?_
    simp only [ids, ItemStore.modifyAt, List.getElem?_map, List.getElem?_modify]
    cases hn : s.items[n]? with
    | none => rfl
    | some i =>
      by_cases hp : position = n
      · subst hp
        simp [hchange i hn]
      · simp [hp]
  exact ⟨hids ▸ h.nodup, fun id => hids ▸ h.position id⟩

/-- The item at the position noted for an identifier has this identifier. -/
theorem Indexed.id_of_position (h : s.Indexed) {id : ItemId} {position : Nat}
    (hp : s.positions.get? id = some position) {i : Item} (hi : s.items[position]? = some i) :
    i.id = id := by
  rw [h.position, ids] at hp
  obtain ⟨hlt, hid, -⟩ := List.findIdx?_eq_some_iff_getElem.1 hp
  obtain ⟨hlt', rfl⟩ := List.getElem?_eq_some_iff.1 hi
  rw [List.getElem_map] at hid
  exact of_decide_eq_true hid

/-- An edit that keeps the item's identifier keeps all positions. -/
theorem Indexed.edit (h : s.Indexed) {id : ItemId} {edit : Item.Edit} {position : Nat}
    (hp : s.positions.get? id = some position) (hedit : edit.rename.getD id = id) :
    (s.modifyAt position (·.edit edit)).Indexed := by
  refine h.modifyAt fun i hi => ?_
  change edit.rename.getD i.id = i.id
  rw [h.id_of_position hp hi, hedit]

end GroupedRows.ItemStore
