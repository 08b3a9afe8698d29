import GroupedRows.Proofs.SlotTable

/-!
# Entries of a slot table

The entries are the stored values with their identifiers, in the order in which the
values are read. Each identifier that names a value stands there once.
-/

namespace GroupedRows.SlotTable

variable {α : Type} {t : SlotTable α}

/-- The stored values with their identifiers, in ascending slot number. -/
def entries (t : SlotTable α) : List (SlotId × α) :=
  t.slots.zipIdx.filterMap fun p => p.1.content.map fun a => (⟨p.2, p.1.version⟩, a)

/-- The values of the entries are the stored values. -/
theorem map_snd_entries (t : SlotTable α) : t.entries.map Prod.snd = t.values := by
  have hcontent : ∀ p : Slot α × Nat,
      (p.1.content.map fun a => ((⟨p.2, p.1.version⟩ : SlotId), a)).map Prod.snd = p.1.content := by
    intro p
    cases p.1.content <;> rfl
  calc t.entries.map Prod.snd
      = t.slots.zipIdx.filterMap fun p => p.1.content := by
        rw [entries, List.map_filterMap]
        exact congrArg (List.filterMap · t.slots.zipIdx) (funext hcontent)
    _ = (t.slots.zipIdx.map Prod.fst).filterMap Slot.content := by
        rw [List.filterMap_map]
        rfl
    _ = t.values := by rw [List.zipIdx_map_fst, values]

/-- The entries are the pairs of an identifier and the value that it names. -/
theorem mem_entries {id : SlotId} {a : α} : (id, a) ∈ t.entries ↔ t.get? id = some a := by
  obtain ⟨n, version⟩ := id
  rw [get?_eq_some_iff, entries, List.mem_filterMap]
  constructor
  · rintro ⟨⟨⟨v, content⟩, m⟩, hmem, hentry⟩
    obtain ⟨b, hb, he⟩ := Option.map_eq_some_iff.1 hentry
    obtain ⟨⟨rfl, rfl⟩, rfl⟩ : (m = n ∧ v = version) ∧ b = a := by simpa using he
    rw [← hb]
    exact List.mem_zipIdx_iff_getElem?.1 hmem
  · intro hslot
    exact ⟨(⟨version, some a⟩, n), List.mem_zipIdx_iff_getElem?.2 hslot, rfl⟩

/-- Entries stand in the order of their slots. -/
theorem pairwise_entries (t : SlotTable α) :
    t.entries.Pairwise fun p q => p.1.slot < q.1.slot := by
  have hnumbers : t.slots.zipIdx.Pairwise fun p q => p.2 < q.2 := by
    have hrange := List.pairwise_lt_range' (s := 0) (n := t.slots.length)
    rw [← List.zipIdx_map_snd 0 t.slots] at hrange
    exact List.pairwise_map.1 hrange
  refine hnumbers.filterMap _ ?_
  intro p q hpq x hx y hy
  obtain ⟨a, -, rfl⟩ := Option.map_eq_some_iff.1 hx
  obtain ⟨b, -, rfl⟩ := Option.map_eq_some_iff.1 hy
  exact hpq

/-- No identifier has two entries. -/
theorem nodup_map_fst_entries (t : SlotTable α) : (t.entries.map Prod.fst).Nodup := by
  refine List.pairwise_map.2 ((pairwise_entries t).imp ?_)
  rintro p q hlt he
  rw [he] at hlt
  exact Nat.lt_irrefl _ hlt

/-- What names a value has been given away. -/
theorem issued_of_get? {id : SlotId} {a : α} (h : t.get? id = some a) : t.Issued id := by
  unfold Issued versionAt
  rw [get?_eq_some_iff.1 h]
  exact Nat.le_refl _

/-- Of two entries the one in the lower slot stands first. -/
theorem pair_sublist_entries {i j : SlotId} {a b : α} (hi : t.get? i = some a)
    (hj : t.get? j = some b) : [(i, a), (j, b)].Sublist t.entries ↔ i.slot < j.slot := by
  constructor
  · intro h
    exact List.rel_of_pairwise_cons ((pairwise_entries t).sublist h) List.mem_cons_self
  · intro hlt
    have horder := pairwise_entries t
    have hmem := mem_entries.2 hi
    obtain ⟨front, back, hparts⟩ := List.append_of_mem (mem_entries.2 hj)
    rw [hparts] at horder hmem ⊢
    obtain ⟨-, hback, -⟩ := List.pairwise_append.1 horder
    rcases List.mem_append.1 hmem with hfront | hrest
    · have hhead : [(j, b)].Sublist ((j, b) :: back) := List.singleton_sublist.2 List.mem_cons_self
      exact (List.singleton_sublist.2 hfront).append hhead
    · rcases List.mem_cons.1 hrest with he | hlater
      · have hids : i = j := congrArg Prod.fst he
        rw [hids] at hlt
        exact absurd hlt (Nat.lt_irrefl _)
      · exact absurd (List.rel_of_pairwise_cons hback hlater) (Nat.lt_asymm hlt)

/-! ## Clearing -/

/-- After clearing, no identifier names a value. -/
@[simp] theorem get?_clear (t : SlotTable α) (id : SlotId) : t.clear.get? id = none := by
  rw [Option.eq_none_iff_forall_ne_some]
  intro a ha
  have hmem := mem_values_of_get? ha
  rw [values_clear] at hmem
  exact absurd hmem List.not_mem_nil

/-- A slot after clearing. -/
theorem getElem?_slots_clear (t : SlotTable α) (n : Nat) :
    t.clear.slots[n]? = t.slots[n]?.map Slot.vacate := by
  simp [clear]

/-- A vacated slot has no content. -/
theorem Slot.content_vacate (s : Slot α) : (Slot.vacate s).content = none := by
  cases h : s.content <;> simp [Slot.vacate, h]

/-- No slot is vacated to an earlier version. -/
theorem Slot.version_le_vacate (s : Slot α) : s.version ≤ (Slot.vacate s).version := by
  unfold Slot.vacate
  split
  · exact Nat.le_succ _
  · exact Nat.le_refl _

/-- Clearing keeps a table sound. -/
theorem Sound.clear (h : t.Sound) : t.clear.Sound := by
  have hfree : t.clear.free = t.taken.reverse ++ t.free := rfl
  have htaken : ∀ n ∈ t.taken, n < t.slots.length ∧ (t.slots[n]?.bind Slot.content).isSome := by
    intro n hn
    simpa [taken] using hn
  constructor
  · intro n hn
    have hlt : n < t.slots.length := by
      rw [hfree, List.mem_append, List.mem_reverse] at hn
      rcases hn with hn | hn
      · exact (htaken n hn).1
      · obtain ⟨version, hv⟩ := h.vacant n hn
        exact (List.getElem?_eq_some_iff.1 hv).1
    refine ⟨(Slot.vacate t.slots[n]).version, ?_⟩
    rw [getElem?_slots_clear, List.getElem?_eq_getElem hlt, Option.map_some,
      ← Slot.content_vacate t.slots[n]]
  · rw [hfree, List.nodup_append]
    have htakenNodup : t.taken.reverse.Nodup :=
      (List.reverse_perm t.taken).symm.nodup (List.nodup_range.filter _)
    refine ⟨htakenNodup, h.nodup, ?_⟩
    rintro n hn _ hfree rfl
    obtain ⟨version, hv⟩ := h.vacant n hfree
    have hsome := (htaken n (List.mem_reverse.1 hn)).2
    rw [hv] at hsome
    simp at hsome

/-- Clearing forgets no version. -/
theorem Issued.clear {id : SlotId} (h : t.Issued id) : t.clear.Issued id := by
  unfold Issued versionAt at h ⊢
  rw [getElem?_slots_clear]
  cases hs : t.slots[id.slot]? with
  | none => simpa [hs] using h
  | some s =>
    rw [hs] at h
    exact Nat.le_trans h (Slot.version_le_vacate s)

end GroupedRows.SlotTable
