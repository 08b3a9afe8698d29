import GroupedRows.SlotTable

/-!
# Identifiers of a slot table

An identifier names at most one value ever: storing a value makes one new identifier
name it, freeing a slot makes one identifier name nothing, and all others keep what
they name. The new identifier has never been given away before.
-/

namespace GroupedRows.SlotTable

variable {α : Type} {t : SlotTable α}

/-- Free slots are slots without content, each listed once. -/
structure Sound (t : SlotTable α) : Prop where
  vacant : ∀ n ∈ t.free, ∃ version, t.slots[n]? = some ⟨version, none⟩
  nodup : t.free.Nodup

/-- An empty table is sound. -/
theorem sound_empty : (empty : SlotTable α).Sound :=
  ⟨fun _ hn => absurd hn List.not_mem_nil, List.nodup_nil⟩

/-- The slot of an identifier is in use or has been used with its version or a later one. -/
def Issued (t : SlotTable α) (id : SlotId) : Prop := id.version ≤ t.versionAt id.slot

/-- An identifier names the content of its slot at its own version. -/
theorem get?_eq_some_iff {id : SlotId} {a : α} :
    t.get? id = some a ↔ t.slots[id.slot]? = some ⟨id.version, some a⟩ := by
  unfold get?
  rw [Option.bind_eq_some_iff]
  constructor
  · rintro ⟨⟨version, content⟩, hs, h⟩
    split at h
    · rename_i hv
      dsimp only at hv h
      rw [hs, hv, h]
    · exact absurd h.symm (Option.some_ne_none a)
  · intro h
    exact ⟨_, h, if_pos rfl⟩

/-- What an identifier names is one of the stored values. -/
theorem mem_values_of_get? {id : SlotId} {a : α} (h : t.get? id = some a) : a ∈ t.values :=
  List.mem_filterMap.2 ⟨_, List.mem_of_getElem? (get?_eq_some_iff.1 h), rfl⟩

/-- Every stored value is named by an identifier. -/
theorem exists_get?_of_mem_values {a : α} (h : a ∈ t.values) : ∃ id, t.get? id = some a := by
  obtain ⟨⟨version, content⟩, hslot, ha⟩ := List.mem_filterMap.1 h
  obtain ⟨n, hn⟩ := List.mem_iff_getElem?.1 hslot
  refine ⟨⟨n, version⟩, get?_eq_some_iff.2 ?_⟩
  rw [hn]
  exact congrArg (fun c => some (Slot.mk version c)) ha

/-- The slot of a named value is not free. -/
theorem Sound.not_mem_free (h : t.Sound) {id : SlotId} {a : α} (ha : t.get? id = some a) :
    id.slot ∉ t.free := by
  intro hn
  obtain ⟨version, hv⟩ := h.vacant _ hn
  rw [get?_eq_some_iff.1 ha] at hv
  simp at hv

/-! ## Storing -/

/-- The slots after storing a value. -/
theorem Sound.getElem?_slots_insert (h : t.Sound) (a : α) (n : Nat) :
    (t.insert a).slots[n]? =
      if n = t.nextSlot then some ⟨t.versionAt t.nextSlot + 1, some a⟩ else t.slots[n]? := by
  unfold insert nextSlot
  cases hf : t.free with
  | nil =>
    have hlast : t.versionAt t.slots.length = 0 := by simp [versionAt]
    rw [List.headD_nil, hlast, List.getElem?_append]
    by_cases hn : n < t.slots.length
    · rw [if_pos hn, if_neg (by omega)]
    · rw [if_neg hn, List.getElem?_singleton]
      by_cases he : n = t.slots.length
      · simp [he]
      · rw [if_neg (by omega), if_neg he, List.getElem?_eq_none (by omega)]
  | cons m rest =>
    obtain ⟨version, hv⟩ := h.vacant m (by simp [hf])
    rw [List.headD_cons, List.getElem?_set]
    by_cases he : n = m
    · subst he
      rw [if_pos rfl, if_pos rfl, if_pos (List.getElem?_eq_some_iff.1 hv).1]
    · rw [if_neg fun e => he e.symm, if_neg he]

/-- The identifier that a value gets names it, and all others keep what they name: the slot that is
taken was free or did not exist, so no identifier has named anything in it. -/
theorem Sound.get?_insert (h : t.Sound) (a : α) (id : SlotId) :
    (t.insert a).get? id = if id = t.nextId then some a else t.get? id := by
  obtain ⟨n, version⟩ := id
  unfold get? nextId
  rw [h.getElem?_slots_insert]
  by_cases hn : n = t.nextSlot
  · subst hn
    have hfree : t.slots[t.nextSlot]?.bind Slot.content = none := by
      cases hf : t.free with
      | nil => simp [nextSlot, hf]
      | cons m rest =>
        obtain ⟨v, hv⟩ := h.vacant m (by simp [hf])
        simp [nextSlot, hf, hv]
    have hold : (t.slots[t.nextSlot]?.bind fun s => if s.version = version then s.content else none)
        = none := by
      cases hs : t.slots[t.nextSlot]? with
      | none => rfl
      | some s =>
        have hc : s.content = none := by simpa [hs] using hfree
        simp [hc]
    rw [if_pos rfl, hold]
    simp [eq_comm]
  · rw [if_neg hn, if_neg fun e => hn (congrArg SlotId.slot e)]

/-- Nothing has been stored under the identifier that comes next. -/
theorem Sound.get?_nextId (h : t.Sound) : t.get? t.nextId = none := by
  rw [Option.eq_none_iff_forall_ne_some]
  intro a ha
  have hnot := h.not_mem_free ha
  have hlt := (List.getElem?_eq_some_iff.1 (get?_eq_some_iff.1 ha)).1
  cases hf : t.free with
  | nil => simp [nextId, nextSlot, hf] at hlt
  | cons m rest => simp [nextId, nextSlot, hf] at hnot

/-- Only the new value is added to the stored ones. -/
theorem mem_values_insert {a b : α} (h : b ∈ (t.insert a).values) : b = a ∨ b ∈ t.values := by
  unfold values at h ⊢
  obtain ⟨slot, hslot, hb⟩ := List.mem_filterMap.1 h
  have hcases : slot ∈ t.slots ∨ slot.content = some a := by
    unfold SlotTable.insert at hslot
    split at hslot
    · rcases List.mem_append.1 hslot with hs | hs
      · exact .inl hs
      · exact .inr (by rw [List.mem_singleton.1 hs])
    · rcases List.mem_or_eq_of_mem_set hslot with hs | rfl
      · exact .inl hs
      · exact .inr rfl
  rcases hcases with hs | hs
  · exact .inr (List.mem_filterMap.2 ⟨slot, hs, hb⟩)
  · exact .inl (Option.some.inj (hb.symm.trans hs))

/-- A further value keeps a table sound. -/
theorem Sound.insert (h : t.Sound) (a : α) : (t.insert a).Sound := by
  cases hf : t.free with
  | nil =>
    have hfree : (t.insert a).free = [] := by simp [SlotTable.insert, hf]
    exact ⟨fun n hn => by simp [hfree] at hn, by simp [hfree]⟩
  | cons m rest =>
    have hfree : (t.insert a).free = rest := by simp [SlotTable.insert, hf]
    have hnodup := List.nodup_cons.1 (hf ▸ h.nodup)
    refine ⟨fun n hn => ?_, hfree ▸ hnodup.2⟩
    rw [hfree] at hn
    have hne : n ≠ t.nextSlot := by
      rintro rfl
      exact hnodup.1 (by simpa [nextSlot, hf] using hn)
    obtain ⟨version, hv⟩ := h.vacant n (by simp [hf, hn])
    exact ⟨version, by rw [h.getElem?_slots_insert, if_neg hne, hv]⟩

/-- A slot that is taken has a new version, and all others have theirs. -/
theorem Sound.versionAt_insert (h : t.Sound) (a : α) (n : Nat) :
    (t.insert a).versionAt n =
      if n = t.nextSlot then t.versionAt t.nextSlot + 1 else t.versionAt n := by
  rw [versionAt, h.getElem?_slots_insert]
  split <;> rfl

/-- Identifiers stay given away while values are added. -/
theorem Sound.issued_insert (h : t.Sound) (a : α) {id : SlotId} (hid : t.Issued id) :
    (t.insert a).Issued id := by
  unfold Issued at hid ⊢
  rw [h.versionAt_insert]
  split
  · rename_i hn
    rw [hn] at hid
    omega
  · exact hid

/-- The identifier that a value has got is given away from then on. -/
theorem Sound.issued_nextId (h : t.Sound) (a : α) : (t.insert a).Issued t.nextId := by
  have hslot : t.nextId.slot = t.nextSlot := rfl
  unfold Issued
  rw [h.versionAt_insert, if_pos hslot]
  exact Nat.le_refl _

/-- An identifier that has been given away is not given away again. -/
theorem Issued.ne_nextId {id : SlotId} (h : t.Issued id) : id ≠ t.nextId := by
  rintro rfl
  exact Nat.not_succ_le_self _ h

/-! ## Freeing -/

/-- The freed slot's identifier names nothing, and all others keep what they name. -/
theorem get?_remove (t : SlotTable α) (id j : SlotId) :
    (t.remove id).get? j = if j = id then none else t.get? j := by
  unfold remove
  split
  · rename_i hid
    obtain ⟨a, ha⟩ := Option.isSome_iff_exists.1 hid
    have hs := get?_eq_some_iff.1 ha
    have hlt := (List.getElem?_eq_some_iff.1 hs).1
    obtain ⟨n, version⟩ := j
    unfold get?
    dsimp only
    rw [List.getElem?_set]
    by_cases hn : id.slot = n
    · subst hn
      rw [if_pos rfl, if_pos hlt, hs]
      by_cases hv : version = id.version
      · simp [hv]
      · have hne : (⟨id.slot, version⟩ : SlotId) ≠ id := fun e => hv (congrArg SlotId.version e)
        simp [hne, Ne.symm hv]
    · rw [if_neg hn, if_neg fun e => hn (congrArg SlotId.slot e).symm]
  · rename_i hid
    split
    · rename_i hj
      rw [hj]
      exact Option.not_isSome_iff_eq_none.1 hid
    · rfl

/-- Removing a value keeps a table sound. -/
theorem Sound.remove (h : t.Sound) (id : SlotId) : (t.remove id).Sound := by
  unfold SlotTable.remove
  split
  · rename_i hid
    obtain ⟨a, ha⟩ := Option.isSome_iff_exists.1 hid
    have hlt := (List.getElem?_eq_some_iff.1 (get?_eq_some_iff.1 ha)).1
    have hnot := h.not_mem_free ha
    refine ⟨fun n hn => ?_, List.nodup_cons.2 ⟨hnot, h.nodup⟩⟩
    rcases List.mem_cons.1 hn with rfl | hn
    · exact ⟨id.version + 1, by simp [hlt]⟩
    · obtain ⟨version, hv⟩ := h.vacant n hn
      have hne : id.slot ≠ n := fun e => hnot (e ▸ hn)
      exact ⟨version, by rw [List.getElem?_set_ne hne, hv]⟩
  · exact h

/-- Identifiers stay given away while values are removed. -/
theorem Issued.remove {j : SlotId} (h : t.Issued j) (id : SlotId) : (t.remove id).Issued j := by
  unfold SlotTable.remove
  split
  · rename_i hid
    obtain ⟨a, ha⟩ := Option.isSome_iff_exists.1 hid
    have hs := get?_eq_some_iff.1 ha
    have hlt := (List.getElem?_eq_some_iff.1 hs).1
    unfold Issued versionAt at h ⊢
    dsimp only
    rw [List.getElem?_set]
    by_cases hn : id.slot = j.slot
    · rw [if_pos hn, if_pos hlt]
      rw [← hn, hs] at h
      exact Nat.le_succ_of_le h
    · rwa [if_neg hn]
  · exact h

/-! ## Numbers of values -/

/-- The size is the number of slots in use. -/
theorem size_eq_countP (t : SlotTable α) : t.size = t.slots.countP fun s => s.content.isSome :=
  List.length_filterMap_eq_countP ..

/-- A further value is one more. -/
theorem Sound.size_insert (h : t.Sound) (a : α) : (t.insert a).size = t.size + 1 := by
  rw [size_eq_countP, size_eq_countP]
  unfold SlotTable.insert
  cases hf : t.free with
  | nil => simp
  | cons m rest =>
    obtain ⟨version, hv⟩ := h.vacant m (by simp [hf])
    obtain ⟨hlt, hm⟩ := List.getElem?_eq_some_iff.1 hv
    simp [List.countP_set, hlt, hm]

/-- A removed value is one less, if there was one. -/
theorem size_remove (t : SlotTable α) (id : SlotId) :
    (t.remove id).size = t.size - if (t.get? id).isSome then 1 else 0 := by
  rw [size_eq_countP, size_eq_countP]
  unfold SlotTable.remove
  split
  · rename_i hid
    obtain ⟨a, ha⟩ := Option.isSome_iff_exists.1 hid
    obtain ⟨hlt, hs⟩ := List.getElem?_eq_some_iff.1 (get?_eq_some_iff.1 ha)
    simp [List.countP_set, hlt, hs]
  · rfl

/-- A value that a single identifier names is stored once. -/
theorem count_values_eq_one [DecidableEq α] {a : α} {i : SlotId}
    (h : ∀ id, t.get? id = some a ↔ id = i) : t.values.count a = 1 := by
  have hi := get?_eq_some_iff.1 ((h i).2 rfl)
  obtain ⟨hlt, hslot⟩ := List.getElem?_eq_some_iff.1 hi
  have helse : ∀ n, n ≠ i.slot → ∀ slot, t.slots[n]? = some slot → slot.content ≠ some a := by
    rintro n hn ⟨version, content⟩ hs rfl
    exact hn (congrArg SlotId.slot ((h ⟨n, version⟩).1 (get?_eq_some_iff.2 hs)))
  have hnone : ∀ l : List (Slot α), (∀ slot ∈ l, slot.content ≠ some a) →
      (l.filterMap Slot.content).count a = 0 := by
    intro l hl
    rw [List.count_eq_zero]
    intro ha
    obtain ⟨slot, hslot, hc⟩ := List.mem_filterMap.1 ha
    exact hl slot hslot hc
  have hparts : t.slots =
      t.slots.take i.slot ++ ⟨i.version, some a⟩ :: t.slots.drop (i.slot + 1) := by
    rw [← hslot, List.getElem_cons_drop, List.take_append_drop]
  have hfront : ∀ slot ∈ t.slots.take i.slot, slot.content ≠ some a := by
    intro slot hs
    obtain ⟨n, hn⟩ := List.mem_iff_getElem?.1 hs
    rw [List.getElem?_take] at hn
    split at hn
    · exact helse n (by omega) slot hn
    · exact absurd hn.symm (Option.some_ne_none slot)
  have hback : ∀ slot ∈ t.slots.drop (i.slot + 1), slot.content ≠ some a := by
    intro slot hs
    obtain ⟨n, hn⟩ := List.mem_iff_getElem?.1 hs
    rw [List.getElem?_drop] at hn
    exact helse _ (by omega) slot hn
  rw [values, hparts, List.filterMap_append, List.count_append, hnone _ hfront]
  simp [hnone _ hback]

end GroupedRows.SlotTable
