import Mathlib.Data.List.Flatten
import GroupedRows.Proofs.GroupTree.ShownRows

/-!
# How one item changes the visible rows

Two trees are compared, one of which has one item more. Rows of the smaller tree are rows
of the larger, and visible in both or in neither as long as the same groups are open. The
larger one shows at most one row besides, since of the groups that only it has none is open.
-/

namespace GroupedRows

open GroupPath

/-- The row that an item brings along if the groups that there were before, and those of them that
were open, are known: its own if all groups of its path are open, or the header of the topmost group
that is new if all groups above that one are open. -/
def Row.arriving (isGroup isOpen : GroupPath → Bool) (path : List GroupPath) (id : ItemId) :
    Option Row :=
  match path.find? fun k => !isGroup k with
  | none => if path.all isOpen then some (.item id) else none
  | some k =>
    if path.all fun j => !j.isAncestorOf k || isOpen j then some (.group k) else none

namespace Row

variable {isGroup isOpen : GroupPath → Bool} {path : List GroupPath} {id i : ItemId} {k : GroupPath}

/-- The item's own row arrives if all groups of its path are open. -/
theorem arriving_eq_item_iff (hopen : ∀ k, isOpen k = true → isGroup k = true) :
    arriving isGroup isOpen path id = some (.item i) ↔ i = id ∧ ∀ k ∈ path, isOpen k = true := by
  unfold arriving
  constructor
  · intro h
    split at h
    · split at h
      · rename_i hall
        exact ⟨(Row.item.inj (Option.some.inj h)).symm, List.all_eq_true.1 hall⟩
      · exact absurd h.symm (Option.some_ne_none _)
    · split at h
      · exact Row.noConfusion (Option.some.inj h)
      · exact absurd h.symm (Option.some_ne_none _)
  · rintro ⟨rfl, hall⟩
    have hnone : (path.find? fun k => !isGroup k) = none :=
      List.find?_eq_none.2 fun k hk => by rw [hopen k (hall k hk)]; exact Bool.false_ne_true
    rw [hnone]
    exact if_pos (List.all_eq_true.2 hall)

/-- The header of a group arrives if the group is new and all groups above it are open. These come
before it on the path, and being open they are not new. -/
theorem arriving_eq_group_iff (hopen : ∀ k, isOpen k = true → isGroup k = true)
    (hpath : path.Pairwise fun j k => j.isAncestorOf k = true) :
    arriving isGroup isOpen path id = some (.group k) ↔
      k ∈ path ∧ isGroup k = false ∧ ∀ j ∈ path, j.isAncestorOf k = true → isOpen j = true := by
  unfold arriving
  constructor
  · intro h
    split at h
    · split at h
      · exact Row.noConfusion (Option.some.inj h)
      · exact absurd h.symm (Option.some_ne_none _)
    · rename_i j hfound
      split at h
      · rename_i hall
        obtain rfl : j = k := Row.group.inj (Option.some.inj h)
        refine ⟨List.mem_of_find?_eq_some hfound, ?_, fun i hi hij => ?_⟩
        · simpa using List.find?_some hfound
        · simpa [hij] using List.all_eq_true.1 hall i hi
      · exact absurd h.symm (Option.some_ne_none _)
  · rintro ⟨hk, hnew, habove⟩
    have hfound : (path.find? fun k => !isGroup k) = some k := by
      obtain ⟨before, after, rfl⟩ := List.append_of_mem hk
      rw [List.find?_eq_some_iff_append]
      refine ⟨by rw [hnew]; rfl, before, after, rfl, fun j hj => ?_⟩
      have hjk := (List.pairwise_append.1 hpath).2.2 j hj k List.mem_cons_self
      rw [hopen j (habove j (List.mem_append_left _ hj) hjk)]
      rfl
    rw [hfound]
    refine if_pos (List.all_eq_true.2 fun j hj => ?_)
    cases hjk : j.isAncestorOf k with
    | false => rfl
    | true => rw [habove j hj hjk]; rfl

end Row

/-- Whether a row stays if an item goes: all rows but that of the item and the headers of groups of
which it is the only item. -/
def Row.staysWithout (id : ItemId) (itemIds : GroupPath → List ItemId) : Row → Bool
  | .group k => itemIds k ≠ [id]
  | .item i => i ≠ id

namespace GroupTree

/-- The second list has one item more than the first, which has the same facets in both. -/
structure OneMore (properties : List String) (id : ItemId) (items : List ItemId) (lookup : Lookup)
    (items' : List ItemId) (lookup' : Lookup) : Prop where
  perm : items'.Perm (id :: items)
  nodup : items'.Nodup
  facets : ∀ i ∈ items, facetsOf properties lookup' i = facetsOf properties lookup i

namespace OneMore

variable {properties : List String} {id : ItemId} {items items' : List ItemId}
  {lookup lookup' : Lookup} {e : Expansion} {k : GroupPath}

/-- The larger tree has the item in addition. -/
theorem mem_iff (h : OneMore properties id items lookup items' lookup') {i : ItemId} :
    i ∈ items' ↔ i = id ∨ i ∈ items := by
  rw [h.perm.mem_iff, List.mem_cons]

/-- The item is new. -/
theorem not_mem (h : OneMore properties id items lookup items' lookup') : id ∉ items :=
  (List.nodup_cons.1 (h.perm.nodup_iff.1 h.nodup)).1

/-- The smaller tree repeats no item. -/
theorem nodup_items (h : OneMore properties id items lookup items' lookup') : items.Nodup :=
  (List.nodup_cons.1 (h.perm.nodup_iff.1 h.nodup)).2

/-- The groups around an item are the same in both trees. -/
theorem mem_pathOf_iff (h : OneMore properties id items lookup items' lookup') {i : ItemId}
    (hi : i ∈ items) :
    k ∈ (build items' properties lookup').pathOf i ↔
      k ∈ (build items properties lookup).pathOf i := by
  rw [mem_pathOf_build (h.mem_iff.2 (.inr hi)), mem_pathOf_build hi, h.facets i hi]

/-- The groups of the larger tree are those of the smaller and those around the further item. -/
theorem contains_iff (h : OneMore properties id items lookup items' lookup') :
    (build items' properties lookup').contains k = true ↔
      (build items properties lookup).contains k = true ∨
        k ∈ (build items' properties lookup').pathOf id := by
  rw [contains_build_iff, contains_build_iff, mem_pathOf_build (h.mem_iff.2 (.inl rfl))]
  constructor
  · rintro ⟨i, hi, hk⟩
    rcases h.mem_iff.1 hi with rfl | hi
    · exact .inr hk
    · exact .inl ⟨i, hi, h.facets i hi ▸ hk⟩
  · rintro (⟨i, hi, hk⟩ | hk)
    · exact ⟨i, h.mem_iff.2 (.inr hi), (h.facets i hi).symm ▸ hk⟩
    · exact ⟨id, h.mem_iff.2 (.inl rfl), hk⟩

/-- All groups above one around an item are around the item. -/
theorem mem_pathOf_of_isAncestorOf (h : OneMore properties id items lookup items' lookup')
    {j : GroupPath} (hk : k ∈ (build items' properties lookup').pathOf id)
    (hj : j.isAncestorOf k = true) : j ∈ (build items' properties lookup').pathOf id := by
  have hid := h.mem_iff.2 (.inl rfl)
  rw [mem_pathOf_build hid] at hk ⊢
  exact (isAncestorOf_iff.1 hj).2.trans hk

/-! ## An item more -/

/-- What is visible in the larger tree is visible in the smaller, or it has arrived. -/
theorem mem_visibleRows_iff (h : OneMore properties id items lookup items' lookup')
    (hopen : ∀ k ∈ e, (build items properties lookup).contains k = true) (r : Row) :
    r ∈ Snapshot.visibleRows (build items' properties lookup') e ↔
      r ∈ Snapshot.visibleRows (build items properties lookup) e ∨
        Row.arriving (build items properties lookup).contains e.contains
          ((build items' properties lookup').pathOf id) id = some r := by
  have hgroups : ∀ k, e.contains k = true → (build items properties lookup).contains k = true :=
    fun k hk => hopen k (Expansion.contains_iff.1 hk)
  cases r with
  | item i =>
    rw [item_mem_visibleRows_build, item_mem_visibleRows_build, Row.arriving_eq_item_iff hgroups]
    by_cases hi : i ∈ items
    · have hne : i ≠ id := fun hid => h.not_mem (hid ▸ hi)
      simp only [h.mem_pathOf_iff hi, h.mem_iff, hi, hne, or_true, true_and, false_and, or_false]
    · simp only [h.mem_iff, hi, or_false, false_and, false_or, Expansion.contains_iff]
      refine and_congr_right fun hid => ?_
      rw [hid]
  | group k =>
    rw [group_mem_visibleRows_build, group_mem_visibleRows_build, Row.arriving_eq_group_iff hgroups
      (pairwise_pathOf_build items' properties lookup' id), h.contains_iff]
    cases hk : (build items properties lookup).contains k with
    | true => simp
    | false =>
      simp only [Bool.false_eq_true, false_or, false_and, true_and, Expansion.contains_iff]
      refine and_congr_right fun hpath => ⟨fun hall j _ hj => hall j hj, fun hall j hj => ?_⟩
      exact hall j (h.mem_pathOf_of_isAncestorOf hpath hj) hj

/-- A row that arrives was not visible. -/
theorem not_mem_of_arriving (h : OneMore properties id items lookup items' lookup')
    (hopen : ∀ k ∈ e, (build items properties lookup).contains k = true) {r : Row}
    (hr : Row.arriving (build items properties lookup).contains e.contains
      ((build items' properties lookup').pathOf id) id = some r) :
    r ∉ Snapshot.visibleRows (build items properties lookup) e := by
  have hgroups : ∀ k, e.contains k = true → (build items properties lookup).contains k = true :=
    fun k hk => hopen k (Expansion.contains_iff.1 hk)
  cases r with
  | item i =>
    obtain ⟨rfl, -⟩ := (Row.arriving_eq_item_iff hgroups).1 hr
    rw [item_mem_visibleRows_build]
    exact fun hi => h.not_mem hi.1
  | group k =>
    obtain ⟨-, hnew, -⟩ := (Row.arriving_eq_group_iff hgroups
      (pairwise_pathOf_build items' properties lookup' id)).1 hr
    rw [group_mem_visibleRows_build, hnew]
    exact fun hk => Bool.false_ne_true hk.1

/-- The larger tree shows what the smaller shows and the row that has arrived, none of them twice.
-/
theorem visibleRows_perm (h : OneMore properties id items lookup items' lookup')
    (hopen : ∀ k ∈ e, (build items properties lookup).contains k = true) :
    (Snapshot.visibleRows (build items' properties lookup') e).Perm
      ((Row.arriving (build items properties lookup).contains e.contains
          ((build items' properties lookup').pathOf id) id).toList ++
        Snapshot.visibleRows (build items properties lookup) e) := by
  have hnew := fun r => h.not_mem_of_arriving hopen (r := r)
  have hmem := h.mem_visibleRows_iff hopen
  generalize Row.arriving _ _ _ _ = arrived at hnew hmem
  have hnodup :
      (arrived.toList ++ Snapshot.visibleRows (build items properties lookup) e).Nodup := by
    refine List.nodup_append.2 ⟨?_, nodup_visibleRows_build h.nodup_items e, ?_⟩
    · cases arrived <;> simp
    · rintro r hr _ hr' rfl
      exact hnew r (Option.mem_toList.1 hr) hr'
  refine (List.perm_ext_iff_of_nodup (nodup_visibleRows_build h.nodup e) hnodup).2 fun r => ?_
  rw [hmem, List.mem_append, Option.mem_toList]
  exact or_comm

/-! ## The item comes last -/

/-- Of the groups listed below a path none moves; a new one comes last. -/
theorem listed_sublist (h : OneMore properties id items lookup (items ++ [id]) lookup')
    (q : Option GroupPath) :
    ((build items properties lookup).listed q).Sublist
      ((build (items ++ [id]) properties lookup').listed q) := by
  have hfacets : items.map (facetsOf properties lookup') = items.map (facetsOf properties lookup) :=
    List.map_congr_left h.facets
  rw [(grown_build items properties lookup).listed_eq,
    (grown_build (items ++ [id]) properties lookup').listed_eq, List.map_append, hfacets,
    List.filterMap_append]
  cases hnext : nextOn (stem q) (facetsOf properties lookup' id) with
  | none => simp [hnext]
  | some c =>
    simp only [List.map_cons, List.map_nil, List.filterMap_cons, hnext, List.filterMap_nil]
    rw [eraseDups_concat]
    split
    · exact .refl _
    · exact List.sublist_append_left _ _

/-- If the item comes last, the rows inside a group of the smaller tree stay in their order. -/
theorem rowsInside_sublist (h : OneMore properties id items lookup (items ++ [id]) lookup')
    (below : Nat) (k : GroupPath) :
    ((build items properties lookup).rowsInside below k).Sublist
      ((build (items ++ [id]) properties lookup').rowsInside below k) := by
  induction below generalizing k with
  | zero =>
    have hsame : items.filter (fun i => facetsOf properties lookup i = k.facets) =
        items.filter fun i => facetsOf properties lookup' i = k.facets :=
      List.filter_congr fun i hi => by rw [h.facets i hi]
    refine List.Sublist.map _ ?_
    rw [ownItems_build, ownItems_build, List.filter_append, hsame]
    exact List.sublist_append_left _ _
  | succ below ih =>
    refine ((h.listed_sublist (some k)).flatMap _).trans ?_
    exact List.Sublist.flatMap_right _ fun c _ => .cons_cons _ (ih c)

/-- So the rows of the smaller tree keep their order. -/
theorem visibleRows_sublist (h : OneMore properties id items lookup (items ++ [id]) lookup') :
    (Snapshot.visibleRows (build items properties lookup) e).Sublist
      (Snapshot.visibleRows (build (items ++ [id]) properties lookup') e) := by
  by_cases hproperties : properties = []
  · subst hproperties
    rw [visibleRows_build_nil, visibleRows_build_nil, List.map_append]
    exact List.sublist_append_left _ _
  · have hall : ((build items properties lookup).allRows).Sublist
        (build (items ++ [id]) properties lookup').allRows := by
      unfold allRows
      rw [levels, levels, properties_build, properties_build]
      refine ((h.listed_sublist none).flatMap _).trans ?_
      exact List.Sublist.flatMap_right _ fun c _ => .cons_cons _ (h.rowsInside_sublist _ c)
    have hshown : (build items properties lookup).allRows.filter
        (Row.isShown (build items properties lookup) e) =
        (build items properties lookup).allRows.filter
          (Row.isShown (build (items ++ [id]) properties lookup') e) := by
      refine List.filter_congr fun r hr => ?_
      cases r with
      | group k => rfl
      | item i =>
        have hi := (item_mem_allRows_build hproperties).1 hr
        rw [Bool.eq_iff_iff, Row.isShown, Row.isShown, List.all_eq_true, List.all_eq_true]
        exact forall_congr' fun k => imp_congr_left (h.mem_pathOf_iff hi).symm
    rw [visibleRows_build hproperties, visibleRows_build hproperties, hshown]
    exact hall.filter _

/-! ## An item less -/

/-- The further item is the only one of a group exactly if the smaller tree lacks the group. -/
theorem allItems_eq_singleton_iff (h : OneMore properties id items lookup items' lookup')
    (hk : (build items' properties lookup').contains k = true) :
    (build items' properties lookup').allItems k = [id] ↔
      (build items properties lookup).contains k = false := by
  have hitems : ((build items' properties lookup').allItems k).Perm ((id :: items).filter
      fun i => k.facets.isPrefixOf (facetsOf properties lookup' i)) :=
    (allItems_build_perm k).trans (h.perm.filter _)
  constructor
  · intro honly
    rw [Bool.eq_false_iff, ne_eq, contains_build_iff]
    rintro ⟨i, hi, hprefix⟩
    rw [← h.facets i hi] at hprefix
    have hmem := hitems.mem_iff.2 (List.mem_filter.2
      ⟨List.mem_cons_of_mem _ hi, List.isPrefixOf_iff_prefix.2 hprefix⟩)
    rw [honly, List.mem_singleton] at hmem
    exact h.not_mem (hmem ▸ hi)
  · intro hnew
    have hid : k ∈ (build items' properties lookup').pathOf id :=
      (h.contains_iff.1 hk).resolve_left (Bool.eq_false_iff.1 hnew)
    rw [mem_pathOf_build (h.mem_iff.2 (.inl rfl))] at hid
    have hothers : items.filter
        (fun i => k.facets.isPrefixOf (facetsOf properties lookup' i)) = [] := by
      refine List.filter_eq_nil_iff.2 fun i hi hprefix => ?_
      rw [List.isPrefixOf_iff_prefix, h.facets i hi] at hprefix
      exact Bool.false_ne_true (hnew.symm.trans (contains_build_iff.2 ⟨i, hi, hprefix⟩))
    rw [List.filter_cons, if_pos (List.isPrefixOf_iff_prefix.2 hid), hothers] at hitems
    exact List.perm_singleton.1 hitems

/-- What is visible in the smaller tree is visible in the larger and stays without the item. -/
theorem mem_visibleRows_iff_staysWithout (h : OneMore properties id items lookup items' lookup')
    (r : Row) :
    r ∈ Snapshot.visibleRows (build items properties lookup) e ↔
      r ∈ Snapshot.visibleRows (build items' properties lookup') e ∧
        r.staysWithout id (build items' properties lookup').allItems = true := by
  cases r with
  | item i =>
    rw [item_mem_visibleRows_build, item_mem_visibleRows_build, h.mem_iff, Row.staysWithout,
      decide_eq_true_eq]
    by_cases hi : i ∈ items
    · have hne : i ≠ id := fun hid => h.not_mem (hid ▸ hi)
      simp only [h.mem_pathOf_iff hi, hi, hne, or_true, true_and, ne_eq, not_false_eq_true,
        and_true]
    · simp only [hi, false_and, or_false, ne_eq, false_iff, not_and]
      rintro ⟨rfl, -⟩ hne
      exact hne rfl
  | group k =>
    rw [group_mem_visibleRows_build, group_mem_visibleRows_build, Row.staysWithout,
      decide_eq_true_eq]
    cases hk : (build items' properties lookup').contains k with
    | false =>
      have hnone : (build items properties lookup).contains k = false :=
        Bool.eq_false_iff.2 fun h' =>
          Bool.false_ne_true (hk.symm.trans (h.contains_iff.2 (.inl h')))
      simp [hnone]
    | true =>
      rw [ne_eq, h.allItems_eq_singleton_iff hk, Bool.not_eq_false, and_comm]
      simp

/-- What the smaller tree shows is left of the larger one if the new row is taken away. -/
theorem visibleRows_perm_filter (h : OneMore properties id items lookup items' lookup') :
    (Snapshot.visibleRows (build items properties lookup) e).Perm
      ((Snapshot.visibleRows (build items' properties lookup') e).filter
        (Row.staysWithout id (build items' properties lookup').allItems)) := by
  refine (List.perm_ext_iff_of_nodup (nodup_visibleRows_build h.nodup_items e)
    ((nodup_visibleRows_build h.nodup e).filter _)).2 fun r => ?_
  rw [List.mem_filter]
  exact h.mem_visibleRows_iff_staysWithout r

end OneMore

end GroupTree

end GroupedRows
