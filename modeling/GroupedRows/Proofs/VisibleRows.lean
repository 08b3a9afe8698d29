import GroupedRows.Proofs.GroupTree.Partition
import GroupedRows.Proofs.GroupTree.Walks
import GroupedRows.Snapshot

/-!
# Which rows are visible

Every row of a tree has a fixed place, whether it is visible or not: a group's header
stands before the rows inside the group. The visible rows are those around which all
groups are open, in this order.
-/

namespace GroupedRows

open GroupPath

/-- The groups around a row: those above a header, those of all levels around an item. -/
def Row.enclosing (t : GroupTree) : Row → List GroupPath
  | .group k => k.ancestors
  | .item id => t.pathOf id

/-- Whether all groups around a row are open. -/
def Row.isShown (t : GroupTree) (e : Expansion) (r : Row) : Bool :=
  (r.enclosing t).all e.contains

/-- Rows that differ among the headers and among the items differ altogether. -/
theorem Row.nodup_of_filterMap {rows : List Row} (hgroups : (rows.filterMap Row.group?).Nodup)
    (hitems : (rows.filterMap Row.item?).Nodup) : rows.Nodup := by
  induction rows with
  | nil => exact List.nodup_nil
  | cons r rest ih =>
    cases r with
    | group k =>
      rw [List.filterMap_cons_some (f := Row.group?) rfl, List.nodup_cons] at hgroups
      rw [List.filterMap_cons_none rfl] at hitems
      refine List.nodup_cons.2 ⟨fun h => hgroups.1 ?_, ih hgroups.2 hitems⟩
      exact List.mem_filterMap.2 ⟨_, h, rfl⟩
    | item id =>
      rw [List.filterMap_cons_none rfl] at hgroups
      rw [List.filterMap_cons_some (f := Row.item?) rfl, List.nodup_cons] at hitems
      refine List.nodup_cons.2 ⟨fun h => hitems.1 ?_, ih hgroups hitems.2⟩
      exact List.mem_filterMap.2 ⟨_, h, rfl⟩

namespace GroupTree

/-- All rows strictly inside a group that has `below` levels below it. -/
def rowsInside (t : GroupTree) : Nat → GroupPath → List Row
  | 0, k => (t.ownItems k).map .item
  | below + 1, k => (t.children k).flatMap fun c => .group c :: t.rowsInside below c

/-- The rows of a tree in which every group is open. -/
def allRows (t : GroupTree) : List Row :=
  t.roots.flatMap fun r => .group r :: t.rowsInside (t.levels - 1) r

section Build

variable {items : List ItemId} {properties : List String} {lookup : Lookup}

/-! ## The groups around the rows inside a group -/

/-- The groups above a group that is listed below a path are those that begin this path. -/
theorem mem_ancestors_of_listed_build {q : Option GroupPath} {c j : GroupPath}
    (hc : c ∈ (build items properties lookup).listed q) :
    j ∈ c.ancestors ↔ j.facets <+: stem q := by
  obtain ⟨hd, hp, _⟩ := (mem_listed_build items properties lookup q c).1 hc
  rw [mem_ancestors_iff, isAncestorOf_iff_prefix_dropLast, dropLast_eq_of_prefix hd hp]

/-- The groups around an item that a group holds are those that begin the group's path. -/
theorem mem_pathOf_of_ownItems_build {k j : GroupPath} {id : ItemId}
    (hid : id ∈ (build items properties lookup).ownItems k) :
    j ∈ (build items properties lookup).pathOf id ↔ j.facets <+: k.facets := by
  rw [ownItems_build, List.mem_filter, decide_eq_true_eq] at hid
  obtain ⟨hitem, hfacets⟩ := hid
  rw [mem_pathOf_build hitem, hfacets]

/-- A group and the groups above it are around all rows inside. -/
theorem mem_enclosing_of_mem_rowsInside_build {below : Nat} {k j : GroupPath} {r : Row}
    (hr : r ∈ (build items properties lookup).rowsInside below k) (hj : j.facets <+: k.facets) :
    j ∈ r.enclosing (build items properties lookup) := by
  induction below generalizing k with
  | zero =>
    obtain ⟨id, hid, rfl⟩ := List.mem_map.1 hr
    exact (mem_pathOf_of_ownItems_build hid).2 hj
  | succ below ih =>
    obtain ⟨c, hc, hr⟩ := List.mem_flatMap.1 hr
    rcases List.mem_cons.1 hr with rfl | hr
    · exact (mem_ancestors_of_listed_build (q := some k) hc).2 hj
    · obtain ⟨_, hp, _⟩ := (mem_listed_build items properties lookup (some k) c).1 hc
      exact ih hr (hj.trans hp)

/-- All that is around a row of a built tree is a group of it. -/
theorem contains_of_mem_enclosing_build {r : Row}
    (hr : r ∈ (build items properties lookup).allRows) {j : GroupPath}
    (hj : j ∈ r.enclosing (build items properties lookup)) :
    (build items properties lookup).contains j = true := by
  have hgroup : ∀ q c, c ∈ (build items properties lookup).listed q → j ∈ c.ancestors →
      (build items properties lookup).contains j = true := by
    intro q c hc hj
    obtain ⟨i, hi, hci⟩ := contains_build_iff.1 (contains_of_mem_listed_build hc)
    have hjc := (isAncestorOf_iff.1 (mem_ancestors_iff.1 hj)).2
    exact contains_build_iff.2 ⟨i, hi, hjc.trans hci⟩
  have hinside : ∀ below k, r ∈ (build items properties lookup).rowsInside below k →
      (build items properties lookup).contains j = true := by
    intro below
    induction below with
    | zero =>
      intro k hr
      obtain ⟨id, _, rfl⟩ := List.mem_map.1 hr
      exact contains_of_mem_pathOf_build hj
    | succ below ih =>
      intro k hr
      obtain ⟨c, hc, hr⟩ := List.mem_flatMap.1 hr
      rcases List.mem_cons.1 hr with rfl | hr
      · exact hgroup (some k) c hc hj
      · exact ih c hr
  obtain ⟨c, hc, hr⟩ := List.mem_flatMap.1 hr
  rcases List.mem_cons.1 hr with rfl | hr
  · exact hgroup none c hc hj
  · exact hinside _ c hr

/-! ## Flattening is a filter -/

/-- Nothing is visible inside a closed group. -/
theorem rowsWithin_of_closed (t : GroupTree) {e : Expansion} {k : GroupPath}
    (hk : e.contains k = false) (levels : Nat) : Snapshot.rowsWithin t e levels k = [] := by
  cases levels with
  | zero => rfl
  | succ levels => simp [Snapshot.rowsWithin, hk]

/-- A closed group is around all rows inside it. -/
theorem filter_rowsInside_build_of_closed {e : Expansion} {below : Nat} {k : GroupPath}
    (hk : e.contains k = false) :
    ((build items properties lookup).rowsInside below k).filter
      (Row.isShown (build items properties lookup) e) = [] := by
  rw [List.filter_eq_nil_iff]
  intro r hr hall
  have hmem := mem_enclosing_of_mem_rowsInside_build hr List.prefix_rfl
  have hopen := List.all_eq_true.1 hall k hmem
  exact absurd (hk.symm.trans hopen) Bool.false_ne_true

/-- If all groups above a group are open, the visible rows inside it are those around which all
groups are open. -/
theorem filter_rowsInside_build {e : Expansion} {below : Nat} {k : GroupPath}
    (hd : k.depth + below = properties.length) (he : ∀ j ∈ k.ancestors, e.contains j = true) :
    ((build items properties lookup).rowsInside below k).filter
        (Row.isShown (build items properties lookup) e) =
      Snapshot.rowsWithin (build items properties lookup) e (below + 1) k := by
  induction below generalizing k with
  | zero =>
    cases hk : e.contains k with
    | false => rw [filter_rowsInside_build_of_closed hk, rowsWithin_of_closed _ hk]
    | true =>
      have hchildren : (build items properties lookup).children k = [] :=
        children_build_eq_nil (.inl (by omega))
      have hall : ∀ r ∈ (build items properties lookup).rowsInside 0 k,
          r.isShown (build items properties lookup) e = true := by
        intro r hr
        obtain ⟨id, hid, rfl⟩ := List.mem_map.1 hr
        rw [Row.isShown, List.all_eq_true]
        intro j hj
        rcases eq_or_isAncestorOf_iff.2 ((mem_pathOf_of_ownItems_build hid).1 hj) with rfl | hj
        · exact hk
        · exact he j (mem_ancestors_iff.2 hj)
      rw [List.filter_eq_self.2 hall]
      simp [Snapshot.rowsWithin, rowsInside, hasChildren, hk, hchildren]
  | succ below ih =>
    cases hk : e.contains k with
    | false => rw [filter_rowsInside_build_of_closed hk, rowsWithin_of_closed _ hk]
    | true =>
      have hown : (build items properties lookup).ownItems k = [] :=
        ownItems_build_eq_nil (.inl (by omega))
      have hwithin : Snapshot.rowsWithin (build items properties lookup) e (below + 1 + 1) k =
          ((build items properties lookup).children k).flatMap fun c =>
            .group c :: Snapshot.rowsWithin (build items properties lookup) e (below + 1) c := by
        rw [Snapshot.rowsWithin, hk, hown, hasChildren]
        cases (build items properties lookup).children k <;> simp
      rw [hwithin, rowsInside, List.filter_flatMap]
      refine List.flatMap_congr fun c hc => ?_
      have hdc := depth_of_mem_children_build hc
      have hopen : ∀ j ∈ c.ancestors, e.contains j = true := by
        intro j hj
        have hjk : j.facets <+: k.facets := (mem_ancestors_of_listed_build (q := some k) hc).1 hj
        rcases eq_or_isAncestorOf_iff.2 hjk with rfl | hj
        · exact hk
        · exact he j (mem_ancestors_iff.2 hj)
      have hheader : (Row.group c).isShown (build items properties lookup) e = true :=
        List.all_eq_true.2 hopen
      rw [List.filter_cons_of_pos hheader, ih (by omega) hopen]

/-- The visible rows of a tree with groups are those around which all groups are open. -/
theorem visibleRows_build (hproperties : properties ≠ []) (e : Expansion) :
    Snapshot.visibleRows (build items properties lookup) e =
      (build items properties lookup).allRows.filter
        (Row.isShown (build items properties lookup) e) := by
  obtain ⟨below, hbelow⟩ : ∃ below, properties.length = below + 1 :=
    ⟨properties.length - 1, by have := List.length_pos_iff.2 hproperties; omega⟩
  have hlevels : (build items properties lookup).levels = below + 1 := by
    rw [levels, properties_build, hbelow]
  have hgroups : (build items properties lookup).hasGroups = true := by
    simpa [hasGroups] using hproperties
  rw [Snapshot.visibleRows, if_pos hgroups, allRows, hlevels, Nat.add_sub_cancel,
    List.filter_flatMap]
  refine List.flatMap_congr fun c hc => ?_
  obtain ⟨hd, _⟩ := (mem_listed_build items properties lookup none c).1 hc
  have hroot : ∀ j ∈ c.ancestors, e.contains j = true := by
    intro j hj
    have hnil := List.prefix_nil.1 ((mem_ancestors_of_listed_build (q := none) hc).1 hj)
    exact absurd hnil j.ne_nil
  have hheader : (Row.group c).isShown (build items properties lookup) e = true :=
    List.all_eq_true.2 hroot
  rw [List.filter_cons_of_pos hheader, filter_rowsInside_build ?_ hroot]
  rw [hd, stem_none, List.length_nil, hbelow]
  omega

/-! ## No row stands twice -/

/-- The headers among all rows are the groups of the tree. -/
theorem filterMap_group?_rowsInside (t : GroupTree) (below : Nat) (k : GroupPath) :
    k :: (t.rowsInside below k).filterMap Row.group? = t.groupsWithin (below + 1) k := by
  induction below generalizing k with
  | zero => simp [rowsInside, groupsWithin, List.filterMap_map, Function.comp_def, Row.group?]
  | succ below ih =>
    rw [groupsWithin, rowsInside, List.filterMap_flatMap]
    congr 1
    refine List.flatMap_congr fun c _ => ?_
    rw [← ih]
    rfl

/-- The items among all rows inside a group are the items of the group. -/
theorem filterMap_item?_rowsInside_build {below : Nat} {k : GroupPath}
    (hd : k.depth + below = properties.length) :
    ((build items properties lookup).rowsInside below k).filterMap Row.item? =
      (build items properties lookup).itemsWithin (below + 1) k := by
  induction below generalizing k with
  | zero => simp [rowsInside, itemsWithin, List.filterMap_map, Function.comp_def, Row.item?]
  | succ below ih =>
    have hown : (build items properties lookup).ownItems k = [] :=
      ownItems_build_eq_nil (.inl (by omega))
    rw [itemsWithin, hown, List.nil_append, rowsInside, List.filterMap_flatMap]
    refine List.flatMap_congr fun c hc => ?_
    have hdc := depth_of_mem_children_build hc
    have hbelow : c.depth + below = properties.length := by omega
    rw [← ih hbelow]
    rfl

/-- The items among all rows are those of the roots, one root after the other. -/
theorem filterMap_item?_allRows_build (hproperties : properties ≠ []) :
    (build items properties lookup).allRows.filterMap Row.item? =
      (build items properties lookup).roots.flatMap (build items properties lookup).allItems := by
  have hpos := List.length_pos_iff.2 hproperties
  rw [allRows, List.filterMap_flatMap]
  refine List.flatMap_congr fun c hc => ?_
  obtain ⟨hd, _⟩ := (mem_listed_build items properties lookup none c).1 hc
  rw [stem_none, List.length_nil] at hd
  have hlevels : (build items properties lookup).levels - 1 + 1 = properties.length := by
    rw [levels, properties_build]
    omega
  have hbelow : c.depth + ((build items properties lookup).levels - 1) = properties.length := by
    omega
  rw [allItems, levels, properties_build, ← hlevels, ← filterMap_item?_rowsInside_build hbelow]
  rfl

/-- The items among all rows are all items. -/
theorem filterMap_item?_allRows_build_perm (hproperties : properties ≠ []) :
    ((build items properties lookup).allRows.filterMap Row.item?).Perm items := by
  rw [filterMap_item?_allRows_build hproperties]
  exact flatMap_roots_build_perm hproperties

/-- The headers among all rows are those of all groups, in the order of the walk. Where a root is
listed there is a level at least. -/
theorem filterMap_group?_allRows_build :
    (build items properties lookup).allRows.filterMap Row.group? =
      (build items properties lookup).allGroups := by
  rw [allRows, List.filterMap_flatMap]
  refine List.flatMap_congr fun c hc => ?_
  have hcontains := contains_of_mem_listed_build (q := none) hc
  have hlevels : (build items properties lookup).levels - 1 + 1 =
      (build items properties lookup).levels := by
    cases properties with
    | nil => exact absurd hcontains (by simp [contains_build_nil])
    | cons p rest => rw [levels, properties_build, List.length_cons, Nat.add_sub_cancel]
  rw [← hlevels, ← filterMap_group?_rowsInside]
  rfl

/-- No header stands twice among all rows. -/
theorem nodup_filterMap_group?_allRows_build :
    ((build items properties lookup).allRows.filterMap Row.group?).Nodup := by
  rw [filterMap_group?_allRows_build]
  exact nodup_flatMap_groupsWithin_build items properties lookup none _

/-- The visible rows are a selection of all rows. -/
theorem visibleRows_build_sublist (hproperties : properties ≠ []) (e : Expansion) :
    (Snapshot.visibleRows (build items properties lookup) e).Sublist
      (build items properties lookup).allRows := by
  rw [visibleRows_build hproperties]
  exact List.filter_sublist

/-- Without properties the rows are the items. -/
theorem visibleRows_build_nil (e : Expansion) :
    Snapshot.visibleRows (build items [] lookup) e = items.map .item := by
  have hgroups : (build items [] lookup).hasGroups = false := by simp [hasGroups]
  rw [Snapshot.visibleRows, hgroups, if_neg Bool.false_ne_true, items_build]

/-- No header is visible twice. -/
theorem nodup_filterMap_group?_visibleRows_build (e : Expansion) :
    ((Snapshot.visibleRows (build items properties lookup) e).filterMap Row.group?).Nodup := by
  by_cases hproperties : properties = []
  · subst hproperties
    have hnone : (items.map Row.item).filterMap Row.group? = [] := by
      simp [List.filterMap_map, Function.comp_def, Row.group?]
    rw [visibleRows_build_nil, hnone]
    exact List.nodup_nil
  · refine ((visibleRows_build_sublist hproperties e).filterMap Row.group?).nodup ?_
    exact nodup_filterMap_group?_allRows_build

/-- No row is visible twice if no item is grouped twice. -/
theorem nodup_visibleRows_build (hitems : items.Nodup) (e : Expansion) :
    (Snapshot.visibleRows (build items properties lookup) e).Nodup := by
  refine Row.nodup_of_filterMap (nodup_filterMap_group?_visibleRows_build e) ?_
  by_cases hproperties : properties = []
  · subst hproperties
    have hall : (items.map Row.item).filterMap Row.item? = items := by
      simp [List.filterMap_map, Function.comp_def, Row.item?]
    rwa [visibleRows_build_nil, hall]
  · refine ((visibleRows_build_sublist hproperties e).filterMap Row.item?).nodup ?_
    exact (filterMap_item?_allRows_build_perm hproperties).nodup_iff.2 hitems

/-- Paths that are no groups do not matter for what is visible. -/
theorem visibleRows_build_congr {e e' : Expansion}
    (h : ∀ k, (build items properties lookup).contains k = true → (k ∈ e ↔ k ∈ e')) :
    Snapshot.visibleRows (build items properties lookup) e =
      Snapshot.visibleRows (build items properties lookup) e' := by
  by_cases hproperties : properties = []
  · subst hproperties
    rw [visibleRows_build_nil, visibleRows_build_nil]
  · rw [visibleRows_build hproperties, visibleRows_build hproperties]
    refine List.filter_congr fun r hr => ?_
    rw [Bool.eq_iff_iff, Row.isShown, Row.isShown, List.all_eq_true, List.all_eq_true]
    simp only [Expansion.contains_iff]
    refine forall₂_congr fun k hk => ?_
    exact h k (contains_of_mem_enclosing_build hr hk)

/-- With more groups open, more is visible and in the same order. -/
theorem visibleRows_build_mono {e e' : Expansion} (h : ∀ k, k ∈ e → k ∈ e') :
    (Snapshot.visibleRows (build items properties lookup) e).Sublist
      (Snapshot.visibleRows (build items properties lookup) e') := by
  by_cases hproperties : properties = []
  · subst hproperties
    rw [visibleRows_build_nil, visibleRows_build_nil]
  · rw [visibleRows_build hproperties, visibleRows_build hproperties]
    apply List.monotone_filter_right
    intro r hr
    unfold Row.isShown at hr ⊢
    rw [List.all_eq_true] at hr ⊢
    intro k hk
    exact Expansion.contains_iff.2 (h k (Expansion.contains_iff.1 (hr k hk)))

end Build

/-- Of all rows of a tree with groups, each header before the rows inside its group, those are
visible around which all groups are open. Around a header these are the proper beginnings of its
path, around an item all groups whose paths begin its facets. Open paths that are no groups do not
matter, opening more groups only adds rows, and no header is visible twice. Without properties the
rows are the items. -/
theorem flatten_shows_rows_in_open_groups (items : List ItemId) (properties : List String)
    (lookup : Lookup) :
    let t := build items properties lookup
    (properties ≠ [] → ∀ e,
      (Snapshot.flatten t e).rows = t.allRows.filter fun r => (r.enclosing t).all e.contains) ∧
    (∀ k j, j ∈ (Row.group k).enclosing t ↔ j.depth < k.depth ∧ j.facets <+: k.facets) ∧
    (∀ i ∈ items, ∀ j, j ∈ (Row.item i).enclosing t ↔ j.facets <+: facetsOf properties lookup i) ∧
    (∀ e e', (∀ k, t.contains k = true → (k ∈ e ↔ k ∈ e')) →
      Snapshot.flatten t e = Snapshot.flatten t e') ∧
    (∀ e e', (∀ k, k ∈ e → k ∈ e') →
      (Snapshot.flatten t e).rows.Sublist (Snapshot.flatten t e').rows) ∧
    (∀ e, ((Snapshot.flatten t e).rows.filterMap Row.group?).Nodup) ∧
    (properties = [] → ∀ e, (Snapshot.flatten t e).rows = items.map .item) := by
  intro t
  refine ⟨visibleRows_build, fun k j => ?_, fun i hi j => mem_pathOf_build hi, fun e e' h => ?_,
    fun e e' h => visibleRows_build_mono h, nodup_filterMap_group?_visibleRows_build, ?_⟩
  · rw [← isAncestorOf_iff]
    exact mem_ancestors_iff
  · exact congrArg Snapshot.ofRows (visibleRows_build_congr h)
  · rintro rfl e
    exact visibleRows_build_nil e

/-- An open group in a closed one shows nothing, and an open path that is no group changes nothing.
-/
theorem flatten_shows_closed_outer_group :
    let lookup : Lookup := fun _ _ => some .null
    let t := build [.number 1] ["kind", "size"] lookup
    let outer := GroupPath.root "kind" .null
    let e := Expansion.ofList [outer.child "size" .null, .root "color" .null]
    ["kind", "size"] ≠ [] ∧ t.allRows.length = 3 ∧
      (Snapshot.flatten t e).rows = t.allRows.filter (fun r => (r.enclosing t).all e.contains) ∧
      (Snapshot.flatten t e).rows = [.group outer] := by
  intro lookup t outer e
  have h := flatten_shows_rows_in_open_groups [.number 1] ["kind", "size"] lookup
  exact ⟨by decide, by decide, h.1 (by decide) e, by decide⟩

end GroupTree

end GroupedRows
