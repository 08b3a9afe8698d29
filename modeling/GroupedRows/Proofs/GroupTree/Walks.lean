import Mathlib.Data.List.Nodup
import GroupedRows.GroupTree.Walk
import GroupedRows.Proofs.Ancestry
import GroupedRows.Proofs.GroupTree.PrefixTree

/-!
# Walks stay in the tree

Whatever a built tree lists is a group of it, so walks downward from the roots meet
groups only. Without properties there are none.
-/

namespace GroupedRows.GroupTree

open GroupPath

/-- What a built tree lists anywhere is one of its groups. -/
theorem contains_of_mem_listed_build {items : List ItemId} {properties : List String}
    {lookup : Lookup} {q : Option GroupPath} {k : GroupPath}
    (h : k ∈ (build items properties lookup).listed q) :
    (build items properties lookup).contains k = true := by
  obtain ⟨_, _, i, hi, hk⟩ := (mem_listed_build items properties lookup q k).1 h
  exact contains_build_iff.2 ⟨i, hi, hk⟩

/-- A walk downward meets groups only if all that is listed is a group. -/
theorem contains_of_mem_groupsWithin {t : GroupTree}
    (h : ∀ q k, k ∈ t.listed q → t.contains k = true) {levels : Nat} {k : GroupPath}
    (hk : t.contains k = true) : ∀ j ∈ t.groupsWithin levels k, t.contains j = true := by
  induction levels generalizing k with
  | zero => simp [groupsWithin]
  | succ levels ih =>
    intro j hj
    rw [groupsWithin, List.mem_cons, List.mem_flatMap] at hj
    rcases hj with rfl | ⟨c, hc, hj⟩
    · exact hk
    · exact ih (h (some k) c hc) j hj

/-- All groups that the walk over a built tree meets are groups of it. -/
theorem contains_of_mem_allGroups_build {items : List ItemId} {properties : List String}
    {lookup : Lookup} {k : GroupPath} (h : k ∈ (build items properties lookup).allGroups) :
    (build items properties lookup).contains k = true := by
  obtain ⟨r, hr, hk⟩ := List.mem_flatMap.1 h
  exact contains_of_mem_groupsWithin (fun _ _ => contains_of_mem_listed_build)
    (contains_of_mem_listed_build (q := none) hr) k hk

/-- A walk downward meets groups only that its first group begins. -/
theorem prefix_of_mem_groupsWithin_build {items : List ItemId} {properties : List String}
    {lookup : Lookup} {levels : Nat} {k j : GroupPath}
    (h : j ∈ (build items properties lookup).groupsWithin levels k) : k.facets <+: j.facets := by
  induction levels generalizing k with
  | zero => exact absurd h List.not_mem_nil
  | succ levels ih =>
    rw [groupsWithin, List.mem_cons, List.mem_flatMap] at h
    rcases h with rfl | ⟨c, hc, h⟩
    · exact List.prefix_rfl
    · obtain ⟨_, hp, _⟩ := (mem_listed_build items properties lookup (some k) c).1 hc
      exact .trans hp (ih h)

/-- Walks downward from all that is listed below a path meet no group twice: what two of the walks
meet begins with different groups of one depth. -/
theorem nodup_flatMap_groupsWithin_build (items : List ItemId) (properties : List String)
    (lookup : Lookup) (q : Option GroupPath) (levels : Nat) :
    (((build items properties lookup).listed q).flatMap
      ((build items properties lookup).groupsWithin levels)).Nodup := by
  induction levels generalizing q with
  | zero =>
    have hnil : ((build items properties lookup).listed q).flatMap
        ((build items properties lookup).groupsWithin 0) = [] :=
      List.flatMap_eq_nil_iff.2 fun _ _ => rfl
    rw [hnil]
    exact List.nodup_nil
  | succ levels ih =>
    rw [List.nodup_flatMap]
    constructor
    · intro c _
      rw [groupsWithin, List.nodup_cons, List.mem_flatMap]
      refine ⟨?_, ih (some c)⟩
      rintro ⟨d, hd, hc⟩
      have hdepth := depth_of_mem_children_build hd
      have hle : d.depth ≤ c.depth := (prefix_of_mem_groupsWithin_build hc).length_le
      omega
    · refine (byFirstItem_listed_build items properties lookup q).nodup.pairwise_of_forall_ne ?_
      intro c hc d hd hne j hjc hjd
      have hcp := prefix_of_mem_groupsWithin_build hjc
      have hdp := prefix_of_mem_groupsWithin_build hjd
      have hlen : c.facets.length = d.facets.length :=
        ((mem_listed_build items properties lookup q c).1 hc).1.trans
          ((mem_listed_build items properties lookup q d).1 hd).1.symm
      have hcd := List.prefix_of_prefix_length_le hcp hdp (Nat.le_of_eq hlen)
      exact hne (ext (hcd.eq_of_length hlen))

/-- Without properties there are no groups. -/
theorem contains_build_nil (items : List ItemId) (lookup : Lookup) (k : GroupPath) :
    (build items [] lookup).contains k = false := by
  rw [Bool.eq_false_iff]
  intro h
  obtain ⟨i, -, hk⟩ := contains_build_iff.1 h
  exact k.ne_nil (List.prefix_nil.1 hk)

/-! ## Upwards -/

@[simp] theorem leaves_addGroup (t : GroupTree) (parent : Option GroupPath) (path : GroupPath) :
    (t.addGroup parent path).leaves = t.leaves := by
  cases parent <;> rfl

@[simp] theorem leaves_visit (t : GroupTree) (parent : Option GroupPath) (path : GroupPath) :
    (t.visit parent path).leaves = t.leaves := by
  unfold visit
  split <;> simp

/-- An item that enters is led to the group of its facets; other items stay where they are. -/
theorem leafOf?_place (t : GroupTree) (lookup : Lookup) (i id : ItemId) :
    (place lookup t i).leafOf? id =
      (if i = id then ofFacets? (facetsOf t.properties lookup i) else none).or (t.leafOf? id) := by
  have hleaves := descend_keeps leaves_visit (fun property => (lookup i property).getD .absent)
    t.properties none t
  have hstem := stem_descend (fun property => (lookup i property).getD .absent) t.properties none t
  unfold place
  generalize descend _ t.properties none t = r at hleaves hstem
  obtain ⟨reached, t'⟩ := r
  have hfacets : stem reached = facetsOf t.properties lookup i := hstem
  rw [← hfacets]
  unfold leafOf?
  cases reached with
  | none =>
    have hnone : ofFacets? (stem none) = none := rfl
    rw [hnone, ite_self, Option.none_or]
    exact congrArg (·.get? id) hleaves
  | some leaf =>
    change (t'.leaves.insert i leaf).get? id = _
    rw [OrderedMap.get?_insert, stem_some, ofFacets?_facets, show t'.leaves = t.leaves from hleaves]
    split <;> rfl

/-- The deepest group of an item has all its facets; what has not entered has none. -/
theorem leafOf?_build (items : List ItemId) (properties : List String) (lookup : Lookup)
    (id : ItemId) :
    (build items properties lookup).leafOf? id =
      if id ∈ items then ofFacets? (facetsOf properties lookup id) else none := by
  induction items using List.reverseRecOn with
  | nil => rfl
  | append_singleton items i ih =>
    have hplace : build (items ++ [i]) properties lookup =
        place lookup (build items properties lookup) i := by
      unfold build
      rw [List.foldl_append]
      rfl
    rw [hplace, leafOf?_place, properties_build, ih]
    by_cases hi : i = id
    · subst hi
      by_cases hm : i ∈ items <;> simp [hm]
    · have hne : id ≠ i := fun e => hi e.symm
      simp [hi, hne]

/-- The deepest group of an item is a group. -/
theorem contains_of_leafOf?_build {items : List ItemId} {properties : List String}
    {lookup : Lookup} {id : ItemId} {leaf : GroupPath}
    (h : (build items properties lookup).leafOf? id = some leaf) :
    (build items properties lookup).contains leaf = true := by
  rw [leafOf?_build] at h
  split at h
  · rename_i hid
    have hfacets := ofFacets?_eq_some_iff.1 h
    exact contains_build_iff.2 ⟨id, hid, hfacets ▸ List.prefix_rfl⟩
  · exact absurd h.symm (Option.some_ne_none leaf)

/-- The parent of a group is a group. -/
theorem Grown.contains_parent {t : GroupTree} {paths : List (List Facet)} (h : Grown t paths)
    {k p : GroupPath} (hk : t.contains k = true) (hp : k.parent? = some p) :
    t.contains p = true := by
  obtain ⟨path, hpath, hprefix⟩ := (h.contains_iff k).1 hk
  refine (h.contains_iff p).2 ⟨path, hpath, .trans ?_ hprefix⟩
  rw [parent?_eq_some_iff.1 hp, facets_child]
  exact List.prefix_append _ _

/-- A walk upward meets groups only. -/
theorem Grown.contains_of_mem_upward {t : GroupTree} {paths : List (List Facet)}
    (h : Grown t paths) {levels : Nat} {q : Option GroupPath}
    (hq : ∀ k, q = some k → t.contains k = true) :
    ∀ k ∈ t.upward levels q, t.contains k = true := by
  induction levels generalizing q with
  | zero => simp [upward]
  | succ levels ih =>
    cases q with
    | none => simp [upward]
    | some j =>
      intro k hk
      rcases List.mem_cons.1 hk with rfl | hk
      · exact hq k rfl
      · refine ih (fun p hp => ?_) k hk
        obtain ⟨n, hn, hparent⟩ := Option.bind_eq_some_iff.1 hp
        rw [(h.node j n hn).2] at hparent
        exact h.contains_parent (hq j rfl) hparent

/-- A walk upward that is long enough meets a group and the groups above it. -/
theorem Grown.upward_eq {t : GroupTree} {paths : List (List Facet)} (h : Grown t paths)
    {levels : Nat} {k : GroupPath} (hk : t.contains k = true) (hd : k.depth ≤ levels) :
    t.upward levels (some k) = k :: k.ancestors := by
  induction levels generalizing k with
  | zero =>
    have hpos := k.depth_pos
    omega
  | succ levels ih =>
    obtain ⟨n, hn⟩ := Option.isSome_iff_exists.1 ((node?_isSome t k).trans hk)
    have hparent : (t.node? k).bind GroupNode.parent = k.parent? := by
      rw [hn, Option.bind_some, (h.node k n hn).2]
    rw [upward, hparent, ancestors_eq]
    cases hp : k.parent? with
    | none => cases levels <;> rfl
    | some p =>
      have hdepth := depth_of_parent? hp
      rw [ih (h.contains_parent hk hp) (by omega)]

/-- From the deepest group of an item, as many levels as there are properties reach the root. -/
theorem upward_of_leafOf?_build {items : List ItemId} {properties : List String} {lookup : Lookup}
    {id : ItemId} {leaf : GroupPath} (h : (build items properties lookup).leafOf? id = some leaf)
    {levels : Nat} (hlevels : properties.length ≤ levels) :
    (build items properties lookup).upward levels (some leaf) = leaf :: leaf.ancestors := by
  have hk := contains_of_leafOf?_build h
  exact (grown_build items properties lookup).upward_eq hk
    (Nat.le_trans (depth_le_of_contains_build hk) hlevels)

/-- The groups around an item are those whose paths begin its facets. -/
theorem mem_pathOf_build {items : List ItemId} {properties : List String} {lookup : Lookup}
    {i : ItemId} (hi : i ∈ items) {j : GroupPath} :
    j ∈ (build items properties lookup).pathOf i ↔ j.facets <+: facetsOf properties lookup i := by
  have hleaf := leafOf?_build items properties lookup i
  rw [if_pos hi] at hleaf
  unfold pathOf
  rw [hleaf, List.mem_reverse, levels, properties_build]
  cases hfacets : ofFacets? (facetsOf properties lookup i) with
  | none =>
    have hnil : facetsOf properties lookup i = [] := ofFacets?_eq_none_iff.1 hfacets
    have hup : (build items properties lookup).upward properties.length none = [] := by
      cases properties.length <;> rfl
    rw [hnil, List.prefix_nil, hup]
    simpa using j.ne_nil
  | some k =>
    rw [upward_of_leafOf?_build (hleaf.trans hfacets) (Nat.le_refl _),
      ofFacets?_eq_some_iff.1 hfacets, List.mem_cons, mem_ancestors_iff, eq_or_isAncestorOf_iff]

/-- All groups around an item are groups of a built tree. -/
theorem contains_of_mem_pathOf_build {items : List ItemId} {properties : List String}
    {lookup : Lookup} {id : ItemId} {k : GroupPath}
    (h : k ∈ (build items properties lookup).pathOf id) :
    (build items properties lookup).contains k = true := by
  have hg := grown_build items properties lookup
  exact hg.contains_of_mem_upward (fun _ => contains_of_leafOf?_build) k (List.mem_reverse.1 h)

end GroupedRows.GroupTree
