import GroupedRows.Proofs.GroupTree.Blocks

/-!
# Which rows are visible at all

A header is visible if there is such a group and all groups above it are open, and an item
if it is there and all groups around it are open. This is so with and without properties,
since without them there is no group.
-/

namespace GroupedRows

namespace GroupTree

open GroupPath

variable {items : List ItemId} {properties : List String} {lookup : Lookup}

/-- Nothing lies above nothing. -/
theorem upward_none (t : GroupTree) (levels : Nat) : t.upward levels none = [] := by
  cases levels <;> rfl

/-- Of two groups around an item, the one that comes first is above the other. -/
theorem pairwise_pathOf_build (items : List ItemId) (properties : List String) (lookup : Lookup)
    (id : ItemId) : ((build items properties lookup).pathOf id).Pairwise
      fun j k => j.isAncestorOf k = true := by
  unfold pathOf
  rw [List.pairwise_reverse]
  cases hleaf : (build items properties lookup).leafOf? id with
  | none =>
    rw [upward_none]
    exact .nil
  | some k =>
    rw [levels, properties_build, upward_of_leafOf?_build hleaf (Nat.le_refl _)]
    exact pairwise_cons_ancestors k

/-- No group stands twice on the path of an item. -/
theorem nodup_pathOf_build (items : List ItemId) (properties : List String) (lookup : Lookup)
    (id : ItemId) : ((build items properties lookup).pathOf id).Nodup := by
  refine (pairwise_pathOf_build items properties lookup id).imp fun {j k} hjk => ?_
  rintro rfl
  exact not_isAncestorOf_self j hjk

/-- There are groups only around items that are there. -/
theorem mem_of_mem_pathOf_build {id : ItemId} {k : GroupPath}
    (h : k ∈ (build items properties lookup).pathOf id) : id ∈ items := by
  by_contra hid
  rw [pathOf, leafOf?_build, if_neg hid, upward_none] at h
  exact absurd h List.not_mem_nil

/-- Among all rows stand the headers of all groups, as they stand among the rows below any path. -/
theorem group_mem_allRows_build {k : GroupPath} :
    .group k ∈ (build items properties lookup).allRows ↔
      (build items properties lookup).contains k = true := by
  have hinside : ∀ below q, .group k ∈ ((build items properties lookup).listed q).flatMap
      (fun c => .group c :: (build items properties lookup).rowsInside below c) →
      (build items properties lookup).contains k = true := by
    intro below
    induction below with
    | zero =>
      intro q hk
      obtain ⟨c, hc, hk⟩ := List.mem_flatMap.1 hk
      rcases List.mem_cons.1 hk with hk | hk
      · obtain rfl := Row.group.inj hk
        exact contains_of_mem_listed_build hc
      · obtain ⟨id, -, hid⟩ := List.mem_map.1 hk
        exact Row.noConfusion hid
    | succ below ih =>
      intro q hk
      obtain ⟨c, hc, hk⟩ := List.mem_flatMap.1 hk
      rcases List.mem_cons.1 hk with hk | hk
      · obtain rfl := Row.group.inj hk
        exact contains_of_mem_listed_build hc
      · exact ih (some c) hk
  refine ⟨hinside _ none, fun hk => ?_⟩
  obtain ⟨before, after, hall, -⟩ := blockIn_allRows_build hk
  rw [hall]
  exact List.mem_append_right _ List.mem_cons_self

/-- Among all rows stand all items. -/
theorem item_mem_allRows_build (hproperties : properties ≠ []) {id : ItemId} :
    .item id ∈ (build items properties lookup).allRows ↔ id ∈ items := by
  have hitems : ((build items properties lookup).allRows.filterMap Row.item?).Perm items :=
    filterMap_item?_allRows_build_perm hproperties
  rw [← hitems.mem_iff, List.mem_filterMap]
  constructor
  · intro h
    exact ⟨_, h, rfl⟩
  · rintro ⟨r, hr, hid⟩
    cases r with
    | group k => exact absurd hid.symm (Option.some_ne_none id)
    | item i =>
      obtain rfl : i = id := Option.some.inj hid
      exact hr

/-- A header is visible if all groups above it are open. -/
theorem group_mem_visibleRows_build {e : Expansion} {k : GroupPath} :
    .group k ∈ Snapshot.visibleRows (build items properties lookup) e ↔
      (build items properties lookup).contains k = true ∧
        ∀ j, j.isAncestorOf k = true → j ∈ e := by
  by_cases hproperties : properties = []
  · subst hproperties
    rw [visibleRows_build_nil, contains_build_nil]
    simp
  · rw [visibleRows_build hproperties, List.mem_filter, group_mem_allRows_build, Row.isShown,
      List.all_eq_true]
    refine and_congr_right fun _ => forall_congr' fun j => ?_
    rw [Expansion.contains_iff]
    exact imp_congr_left mem_ancestors_iff

/-- An item is visible if all groups around it are open. -/
theorem item_mem_visibleRows_build {e : Expansion} {id : ItemId} :
    .item id ∈ Snapshot.visibleRows (build items properties lookup) e ↔
      id ∈ items ∧ ∀ k ∈ (build items properties lookup).pathOf id, k ∈ e := by
  by_cases hproperties : properties = []
  · subst hproperties
    have hpath : (build items [] lookup).pathOf id = [] :=
      List.eq_nil_iff_forall_not_mem.2 fun k hk =>
        Bool.false_ne_true ((contains_build_nil items lookup k).symm.trans
          (contains_of_mem_pathOf_build hk))
    rw [visibleRows_build_nil, hpath]
    simp
  · rw [visibleRows_build hproperties, List.mem_filter, item_mem_allRows_build hproperties,
      Row.isShown, List.all_eq_true]
    simp only [Expansion.contains_iff]
    rfl

end GroupTree

end GroupedRows
