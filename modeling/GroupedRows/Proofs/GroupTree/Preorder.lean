import GroupedRows.Arrangement
import GroupedRows.Proofs.GroupTree.ShownRows

/-!
# The walk over all groups

The walk from the roots meets every group of the arena once, each right before the groups
below it. With every group open, the visible headers are the groups in the order of the
walk, and every item is visible.
-/

namespace GroupedRows

/-- Each row is a header or an item. -/
theorem Row.length_eq_add (rows : List Row) :
    rows.length = (rows.filterMap Row.group?).length + (rows.filterMap Row.item?).length := by
  induction rows with
  | nil => rfl
  | cons r rest ih =>
    cases r with
    | group k =>
      rw [List.filterMap_cons_some (f := Row.group?) rfl,
        List.filterMap_cons_none (f := Row.item?) rfl, List.length_cons, List.length_cons, ih]
      omega
    | item id =>
      rw [List.filterMap_cons_none (f := Row.group?) rfl,
        List.filterMap_cons_some (f := Row.item?) rfl, List.length_cons, List.length_cons, ih]
      omega

/-- The headers inside a group are those of the groups below it. -/
theorem Row.filterMap_group?_filter_isInside (k : GroupPath) (ids : List ItemId)
    (rows : List Row) :
    (rows.filter (Row.isInside k ids)).filterMap Row.group? =
      (rows.filterMap Row.group?).filter k.isAncestorOf := by
  rw [List.filterMap_filter, List.filter_filterMap]
  refine congrArg (rows.filterMap ·) (funext fun r => ?_)
  cases r with
  | group j => rfl
  | item id => simp [Row.group?]

namespace GroupTree

open GroupPath

section Build

variable {items : List ItemId} {properties : List String} {lookup : Lookup} {k : GroupPath}

/-- The walk meets no group twice. -/
theorem nodup_allGroups_build : (build items properties lookup).allGroups.Nodup :=
  nodup_flatMap_groupsWithin_build items properties lookup none _

/-- The walk meets every group of the arena. -/
theorem mem_allGroups_build :
    k ∈ (build items properties lookup).allGroups ↔
      (build items properties lookup).contains k = true := by
  refine ⟨contains_of_mem_allGroups_build, fun hk => ?_⟩
  rw [← filterMap_group?_allRows_build]
  exact List.mem_filterMap.2 ⟨_, group_mem_allRows_build.2 hk, rfl⟩

/-- Without repetition, as many groups are collected as the arena has. -/
theorem length_eq_groupCount_build {groups : List GroupPath} (hnodup : groups.Nodup)
    (hmem : ∀ k, k ∈ groups ↔ (build items properties lookup).contains k = true) :
    groups.length = (build items properties lookup).groupCount := by
  rw [groupCount, ← OrderedMap.length_keys]
  refine List.Perm.length_eq ?_
  rw [List.perm_ext_iff_of_nodup hnodup (OrderedMap.nodup_keys _)]
  intro k
  rw [hmem, ← OrderedMap.contains_iff]
  rfl

/-! ## Groups below a group -/

/-- The groups below a group are those that the walk meets from it on. -/
theorem filter_isAncestorOf_allGroups_build
    (hk : (build items properties lookup).contains k = true) :
    (build items properties lookup).allGroups.filter k.isAncestorOf =
      ((build items properties lookup).children k).flatMap
        ((build items properties lookup).groupsWithin (properties.length - k.depth)) := by
  have hwalk := filterMap_group?_rowsInside (build items properties lookup)
    (properties.length - k.depth) k
  rw [groupsWithin] at hwalk
  rw [← (List.cons_injective hwalk), ← filterMap_group?_allRows_build,
    ← Row.filterMap_group?_filter_isInside k ((build items properties lookup).allItems k),
    filter_isInside_allRows_build hk]

/-- The walk meets the groups below a group directly after it. -/
theorem allGroups_build_eq (hk : (build items properties lookup).contains k = true) :
    ∃ before after, (build items properties lookup).allGroups =
      before ++ k :: ((build items properties lookup).allGroups.filter k.isAncestorOf ++ after) := by
  obtain ⟨before, after, hall, -⟩ := blockIn_allRows_build hk
  refine ⟨before.filterMap Row.group?, after.filterMap Row.group?, ?_⟩
  rw [← filterMap_group?_allRows_build,
    ← Row.filterMap_group?_filter_isInside k ((build items properties lookup).allItems k),
    filter_isInside_allRows_build hk, hall, List.filterMap_append,
    List.filterMap_cons_some (f := Row.group?) rfl, List.filterMap_append]

/-- A listed group has as its parent the path below which it is listed. -/
theorem parent?_of_mem_listed_build {q : Option GroupPath}
    (hk : k ∈ (build items properties lookup).listed q) : k.parent? = q := by
  obtain ⟨hd, hp, -⟩ := (mem_listed_build items properties lookup q k).1 hk
  rw [parent?, dropLast_eq_of_prefix hd hp]
  cases q with
  | none => rfl
  | some p => exact ofFacets?_facets p

/-- Of the groups that a walk meets below a path, only those listed there have it as parent: those
further below lie deeper than any group with this parent. -/
theorem filter_parent?_flatMap_groupsWithin_build (q : Option GroupPath) (levels : Nat) :
    (((build items properties lookup).listed q).flatMap
        ((build items properties lookup).groupsWithin (levels + 1))).filter (·.parent? = q) =
      (build items properties lookup).listed q := by
  rw [List.filter_flatMap]
  refine Eq.trans (List.flatMap_congr fun c hc => ?_) (List.flatMap_singleton' _)
  have hparent := parent?_of_mem_listed_build hc
  have hbelow : (((build items properties lookup).children c).flatMap
      ((build items properties lookup).groupsWithin levels)).filter (·.parent? = q) = [] := by
    refine List.filter_eq_nil_iff.2 fun j hj hjq => ?_
    obtain ⟨d, hd, hj⟩ := List.mem_flatMap.1 hj
    have hdepth := depth_of_mem_children_build hd
    have hlong : d.depth ≤ j.depth := (prefix_of_mem_groupsWithin_build hj).length_le
    have hsame : j.facets.dropLast.length = c.facets.dropLast.length := by
      have hjc : j.parent? = c.parent? := (of_decide_eq_true hjq).trans hparent.symm
      unfold parent? at hjc
      cases hp : ofFacets? c.facets.dropLast with
      | none =>
        rw [hp] at hjc
        rw [ofFacets?_eq_none_iff.1 hjc, ofFacets?_eq_none_iff.1 hp]
      | some p =>
        rw [hp] at hjc
        rw [ofFacets?_eq_some_iff.1 hjc, ofFacets?_eq_some_iff.1 hp]
    have hpos := c.depth_pos
    rw [List.length_dropLast, List.length_dropLast] at hsame
    unfold depth at hdepth hlong hpos
    omega
  have hself : decide (c.parent? = q) = true := decide_eq_true hparent
  rw [groupsWithin, List.filter_cons, hself, if_pos rfl, hbelow]

/-- The walk meets siblings in the order in which the tree lists them. -/
theorem filter_parent?_allGroups_build (q : Option GroupPath) :
    (build items properties lookup).allGroups.filter (·.parent? = q) =
      (build items properties lookup).listed q := by
  have hg := grown_build items properties lookup
  cases q with
  | none =>
    by_cases hproperties : properties = []
    · have hnone : ∀ q, (build items properties lookup).listed q = [] := fun q =>
        List.eq_nil_iff_forall_not_mem.2 fun k hk => Bool.false_ne_true <| by
          rw [← contains_of_mem_listed_build hk, hproperties, contains_build_nil]
      have hroots : (build items properties lookup).roots = [] := hnone none
      rw [hnone, allGroups, hroots]
      rfl
    · obtain ⟨levels, hlevels⟩ : ∃ levels, properties.length = levels + 1 :=
        Nat.exists_eq_succ_of_ne_zero (mt List.length_eq_zero_iff.1 hproperties)
      have hall : (build items properties lookup).levels = levels + 1 := by
        rw [GroupTree.levels, properties_build, hlevels]
      unfold allGroups
      rw [hall]
      exact filter_parent?_flatMap_groupsWithin_build none levels
  | some k =>
    cases hk : (build items properties lookup).contains k with
    | false =>
      rw [show (build items properties lookup).listed (some k) = [] from
        children_of_not_contains hk]
      refine List.filter_eq_nil_iff.2 fun j hj hjk => Bool.false_ne_true ?_
      rw [← hk, hg.contains_parent (mem_allGroups_build.1 hj) (of_decide_eq_true hjk)]
    | true =>
      have hbelow : ∀ j : GroupPath, decide (j.parent? = some k) =
          (decide (j.parent? = some k) && k.isAncestorOf j) := by
        intro j
        rw [Bool.eq_iff_iff, Bool.and_eq_true, decide_eq_true_eq, iff_self_and]
        intro hj
        rw [← mem_ancestors_iff, ancestors_eq, hj]
        exact List.mem_cons_self
      rw [List.filter_congr fun j _ => hbelow j, ← List.filter_filter,
        filter_isAncestorOf_allGroups_build hk]
      cases hd : properties.length - k.depth with
      | zero =>
        rw [show (build items properties lookup).listed (some k) = [] from
          children_build_eq_nil (.inl (by omega)), children_build_eq_nil (.inl (by omega))]
        rfl
      | succ levels => exact filter_parent?_flatMap_groupsWithin_build (some k) levels

/-! ## Everything open, nothing open -/

/-- With every group open, every row is visible. -/
theorem visibleRows_all_build (hproperties : properties ≠ []) :
    Snapshot.visibleRows (build items properties lookup)
        (.all (build items properties lookup)) =
      (build items properties lookup).allRows := by
  rw [visibleRows_build hproperties]
  refine List.filter_eq_self.2 fun r hr => List.all_eq_true.2 fun k hk => ?_
  exact Expansion.contains_iff.2
    (Expansion.mem_ofList.2 (mem_allGroups_build.2 (contains_of_mem_enclosing_build hr hk)))

/-- With no group open, the outermost headers are visible. -/
theorem visibleRows_empty {t : GroupTree} (ht : t.hasGroups = true) :
    Snapshot.visibleRows t .empty = t.roots.map .group := by
  rw [Snapshot.visibleRows, if_pos ht, List.map_eq_flatMap]
  exact List.flatMap_congr fun r _ => congrArg (Row.group r :: ·) (rowsWithin_of_closed t rfl _)

end Build

/-- The walk over all groups meets every group of the arena exactly once. Each group stands right
before all groups below it, and siblings stand in the order of the roots or of their parent's
children. To open every group, whatever is open before, opens just these groups; with some
properties their headers are then visible in the order of the walk, and all items root by root.
With nothing open the visible rows are the headers of the roots. -/
theorem walk_is_preorder (items : List ItemId) (properties : List String) (lookup : Lookup) :
    let t := build items properties lookup
    t.allGroups.Nodup ∧ (∀ k, k ∈ t.allGroups ↔ t.contains k = true) ∧
    t.allGroups.length = t.groupCount ∧
    (∀ k ∈ t.allGroups, ∃ before after,
      t.allGroups = before ++ k :: (t.allGroups.filter k.isAncestorOf ++ after)) ∧
    t.allGroups.filter (·.parent? = none) = t.roots ∧
    (∀ k, t.allGroups.filter (·.parent? = some k) = t.children k) ∧
    (properties ≠ [] → (Snapshot.flatten t .empty).rows = t.roots.map .group) ∧
    ∀ a : Arrangement, a.tree = t →
      (∀ k, k ∈ a.expandAll.expansion ↔ k ∈ t.allGroups) ∧
      a.expandAll.expansion.size = t.groupCount ∧
      (properties ≠ [] →
        let opened := (Snapshot.flatten t a.expandAll.expansion).rows
        opened.length = t.groupCount + items.length ∧
        opened.filterMap Row.group? = t.allGroups ∧
        opened.filterMap Row.item? = t.roots.flatMap t.allItems) := by
  intro t
  have hlength : t.allGroups.length = t.groupCount :=
    length_eq_groupCount_build nodup_allGroups_build fun _ => mem_allGroups_build
  refine ⟨nodup_allGroups_build, fun _ => mem_allGroups_build, hlength,
    fun k hk => allGroups_build_eq (mem_allGroups_build.1 hk), filter_parent?_allGroups_build none,
    fun k => filter_parent?_allGroups_build (some k),
    fun hproperties => visibleRows_empty (by simpa [t, hasGroups] using hproperties), ?_⟩
  rintro ⟨_, _, _⟩ rfl
  refine ⟨fun _ => Expansion.mem_ofList, ?_, fun hproperties => ?_⟩
  · exact length_eq_groupCount_build (Expansion.nodup _) fun _ =>
      Expansion.mem_ofList.trans mem_allGroups_build
  · have hrows : (Snapshot.flatten t (.all t)).rows = t.allRows := visibleRows_all_build hproperties
    have hgroups : t.allRows.filterMap Row.group? = t.allGroups := filterMap_group?_allRows_build
    have hitems : t.allRows.filterMap Row.item? = t.roots.flatMap t.allItems :=
      filterMap_item?_allRows_build hproperties
    have hcount : (t.roots.flatMap t.allItems).length = items.length :=
      (flatMap_roots_build_perm hproperties).length_eq
    refine ⟨?_, ?_, ?_⟩
    · change (Snapshot.flatten t (.all t)).rows.length = _
      rw [hrows, Row.length_eq_add, hgroups, hitems, hlength, hcount]
    · exact (congrArg (List.filterMap Row.group?) hrows).trans hgroups
    · exact (congrArg (List.filterMap Row.item?) hrows).trans hitems

end GroupTree

end GroupedRows
