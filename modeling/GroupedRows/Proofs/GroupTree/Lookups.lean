import Mathlib.Data.List.Infix
import GroupedRows.Proofs.GroupTree.Partition
import GroupedRows.Proofs.GroupTree.SharedLevels
import GroupedRows.Proofs.GroupTree.Walks

/-!
# Looking up and looking down

The walk up from an item's deepest group and the walk down from a group are made of
different parts of the tree. Both come to the same pairs of an item and a group, and the
groups around an item are the nonempty beginnings of its facets, the shortest first.
-/

namespace GroupedRows

namespace GroupPath

/-- From the root down to a path stand the nonempty beginnings of its facets. -/
theorem map_facets_reverse_ancestors (k : GroupPath) :
    (k :: k.ancestors).reverse.map facets = k.facets.inits.tail := by
  induction k using ancestors.induct with
  | case1 k hk =>
    have hroot : k.facets.dropLast = [] := ofFacets?_eq_none_iff.1 hk
    obtain ⟨f, hf⟩ : ∃ f, k.facets = [f] :=
      ⟨k.last, by rw [← List.dropLast_concat_getLast k.ne_nil, hroot]; rfl⟩
    rw [ancestors_eq, hk, hf]
    simp [hf]
  | case2 k p hk ih =>
    have hfacets : k.facets = p.facets ++ [⟨k.property, k.value⟩] :=
      congrArg facets (parent?_eq_some_iff.1 hk)
    have hne : p.facets.inits ≠ [] := by simp [← List.length_pos_iff]
    rw [ancestors_eq, hk, List.reverse_cons, List.map_append, ih, hfacets, List.inits_append,
      List.tail_append_of_ne_nil hne, List.map_singleton, hfacets]
    simp

end GroupPath

namespace GroupTree

open GroupPath

variable {items : List ItemId} {properties : List String} {lookup : Lookup} {id : ItemId}

/-- The deepest group of an item has all its facets. -/
theorem exists_leafOf?_build (lookup : Lookup) (hid : id ∈ items) (hproperties : properties ≠ []) :
    ∃ leaf, (build items properties lookup).leafOf? id = some leaf ∧
      leaf.facets = facetsOf properties lookup id := by
  have hne : facetsOf properties lookup id ≠ [] := by simpa [facetsOf] using hproperties
  refine ⟨⟨_, hne⟩, ?_, rfl⟩
  rw [leafOf?_build, if_pos hid, ofFacets?_eq_some_iff]

/-- An item that is not there, or one of an ungrouped tree, has no leaf. -/
theorem leafOf?_build_eq_none (h : id ∉ items ∨ properties = []) :
    (build items properties lookup).leafOf? id = none := by
  rw [leafOf?_build]
  split
  · rename_i hid
    rw [ofFacets?_eq_none_iff, h.resolve_left (not_not_intro hid)]
    rfl
  · rfl

/-- Around what has not entered there are no groups. -/
theorem pathOf_build_eq_nil (h : id ∉ items ∨ properties = []) :
    (build items properties lookup).pathOf id = [] := by
  unfold pathOf
  rw [leafOf?_build_eq_none h]
  cases (build items properties lookup).levels <;> rfl

/-- Around an item stand the nonempty beginnings of its facets, the shortest first. -/
theorem map_facets_pathOf_build (hid : id ∈ items) :
    ((build items properties lookup).pathOf id).map facets =
      (facetsOf properties lookup id).inits.tail := by
  by_cases hproperties : properties = []
  · subst hproperties
    rw [pathOf_build_eq_nil (.inr rfl)]
    rfl
  obtain ⟨leaf, hleaf, hfacets⟩ := exists_leafOf?_build lookup hid hproperties
  unfold pathOf
  rw [hleaf, levels, properties_build, upward_of_leafOf?_build hleaf (Nat.le_refl _),
    map_facets_reverse_ancestors, hfacets]

/-- The path of an item leads through all levels. -/
theorem length_pathOf_build (hid : id ∈ items) :
    ((build items properties lookup).pathOf id).length = properties.length := by
  rw [← List.length_map facets, map_facets_pathOf_build hid, List.length_tail, List.length_inits,
    length_facetsOf, Nat.add_sub_cancel]

/-- At each position around an item stands the group of so many facets and one more. -/
theorem facets_of_getElem?_pathOf_build (hid : id ∈ items) {j : Nat} {k : GroupPath}
    (hk : ((build items properties lookup).pathOf id)[j]? = some k) :
    k.facets = (facetsOf properties lookup id).take (j + 1) ∧ k.depth = j + 1 := by
  obtain ⟨hj, -⟩ := List.getElem?_eq_some_iff.1 hk
  rw [length_pathOf_build hid] at hj
  have hfacets : k.facets = (facetsOf properties lookup id).take (j + 1) := by
    have h : (((build items properties lookup).pathOf id).map facets)[j]? = some k.facets := by
      rw [List.getElem?_map, hk]
      rfl
    rw [map_facets_pathOf_build hid, List.getElem?_tail] at h
    obtain ⟨_, h⟩ := List.getElem?_eq_some_iff.1 h
    rw [← h, List.getElem_inits]
  refine ⟨hfacets, ?_⟩
  rw [depth, hfacets, List.length_take, length_facetsOf]
  omega

/-- A group holds at some level the items that it is around. -/
theorem mem_allItems_build_iff {k : GroupPath} :
    id ∈ (build items properties lookup).allItems k ↔
      k ∈ (build items properties lookup).pathOf id := by
  rw [(allItems_build_perm k).mem_iff, List.mem_filter, List.isPrefixOf_iff_prefix]
  by_cases hid : id ∈ items
  · rw [mem_pathOf_build hid, and_iff_right hid]
  · rw [pathOf_build_eq_nil (.inl hid)]
    simp [hid]

/-- A group holds directly the items whose deepest group it is. -/
theorem mem_ownItems_build_iff {k : GroupPath} :
    id ∈ (build items properties lookup).ownItems k ↔
      (build items properties lookup).leafOf? id = some k := by
  rw [ownItems_build, List.mem_filter, decide_eq_true_eq, leafOf?_build]
  by_cases hid : id ∈ items
  · rw [if_pos hid, and_iff_right hid, ofFacets?_eq_some_iff]
  · rw [if_neg hid]
    simp [hid]

/-- The last of two neighbours around an item has the other as its parent. -/
theorem parent?_of_getElem?_pathOf_build (hid : id ∈ items) {j : Nat} {k c : GroupPath}
    (hk : ((build items properties lookup).pathOf id)[j]? = some k)
    (hc : ((build items properties lookup).pathOf id)[j + 1]? = some c) :
    c.parent? = some k := by
  obtain ⟨hkfacets, hkdepth⟩ := facets_of_getElem?_pathOf_build hid hk
  obtain ⟨hcfacets, hcdepth⟩ := facets_of_getElem?_pathOf_build hid hc
  refine ofFacets?_eq_some_iff.2 <| dropLast_eq_of_prefix ?_ ?_
  · rw [hcdepth, ← hkdepth, depth]
  · rw [hkfacets, hcfacets]
    exact List.take_prefix_take_left (Nat.le_succ _)

/-- A group is on the level of its property. -/
theorem getElem?_properties_of_contains_build {k : GroupPath}
    (hk : (build items properties lookup).contains k = true) :
    properties[k.depth - 1]? = some k.property := by
  obtain ⟨i, -, hki⟩ := contains_build_iff.1 hk
  have hnames := (map_property_of_prefix_facetsOf hki).1
  have hpos := k.depth_pos
  have hlt : k.depth - 1 < (k.facets.map Facet.property).length := by
    rw [List.length_map]
    exact Nat.sub_one_lt_of_lt hpos
  rw [List.prefix_iff_getElem?.1 hnames _ hlt, List.getElem_map, property, last,
    List.getLast_eq_getElem]
  rfl

/-- A group has the items that have its values. -/
theorem mem_allItems_build_iff_values {k : GroupPath}
    (hk : (build items properties lookup).contains k = true) :
    id ∈ (build items properties lookup).allItems k ↔
      id ∈ items ∧ ∀ f ∈ k.facets, (lookup id f.property).getD .absent = f.value := by
  obtain ⟨i, -, hki⟩ := contains_build_iff.1 hk
  have hnames := (map_property_of_prefix_facetsOf hki).1
  rw [(allItems_build_perm k).mem_iff, List.mem_filter, List.isPrefixOf_iff_prefix]
  refine and_congr_right fun _ => ⟨fun h f hf => ?_, fun h => ?_⟩
  · rw [(map_property_of_prefix_facetsOf h).2] at hf
    obtain ⟨p, -, rfl⟩ := List.mem_map.1 hf
    rfl
  · have hfacets : k.facets = facetsOf (k.facets.map Facet.property) lookup id := by
      unfold facetsOf
      rw [List.map_map]
      refine (List.map_id k.facets).symm.trans (List.map_congr_left fun f hf => ?_)
      rw [Function.comp_apply, h f hf]
      rfl
    rw [hfacets]
    exact hnames.map _

/-- The look-ups from items to groups and from groups to items are inverse to each other. A group
has an item at some level if it is around the item, and holds it directly if it is the item's
deepest group. Around an item that has entered stands one group for each property. Each is the
parent of the next, and the last is the deepest group, whose facets are the item's values, absent
where it has none. Around other items, and without properties, there are no groups. -/
theorem lookups_are_inverse (items : List ItemId) (properties : List String) (lookup : Lookup) :
    let t := build items properties lookup
    (∀ id k, id ∈ t.allItems k ↔ k ∈ t.pathOf id) ∧
    (∀ id k, id ∈ t.ownItems k ↔ t.leafOf? id = some k) ∧
    (∀ id ∈ items, properties ≠ [] →
      (t.pathOf id).length = properties.length ∧
      (∀ j k c, (t.pathOf id)[j]? = some k → (t.pathOf id)[j + 1]? = some c →
        c.parent? = some k ∧ (t.node? c).bind GroupNode.parent = some k) ∧
      ∃ leaf, t.leafOf? id = some leaf ∧ (t.pathOf id).getLast? = some leaf ∧
        leaf.facets = properties.map (fun p => ⟨p, (lookup id p).getD .absent⟩) ∧
        ∀ j k, (t.pathOf id)[j]? = some k →
          k.depth = j + 1 ∧ k.facets = leaf.facets.take (j + 1)) ∧
    ∀ id, id ∉ items ∨ properties = [] → t.pathOf id = [] ∧ t.leafOf? id = none := by
  intro t
  refine ⟨fun _ _ => mem_allItems_build_iff, fun _ _ => mem_ownItems_build_iff,
    fun id hid hproperties => ⟨length_pathOf_build hid, fun j k c hk hc => ?_, ?_⟩,
    fun id h => ⟨pathOf_build_eq_nil h, leafOf?_build_eq_none h⟩⟩
  · have hparent := parent?_of_getElem?_pathOf_build hid hk hc
    have hcontains := contains_of_mem_pathOf_build (List.mem_of_getElem? hc)
    obtain ⟨n, hn⟩ := Option.isSome_iff_exists.1 ((node?_isSome _ c).trans hcontains)
    refine ⟨hparent, ?_⟩
    rw [hn, Option.bind_some, ((grown_build items properties lookup).node c n hn).2, hparent]
  · obtain ⟨leaf, hleaf, hfacets⟩ := exists_leafOf?_build lookup hid hproperties
    have hlength : (t.pathOf id).length = properties.length := length_pathOf_build hid
    have hpath : t.pathOf id ≠ [] := by
      rw [← List.length_pos_iff, hlength]
      exact List.length_pos_iff.2 hproperties
    refine ⟨leaf, hleaf, ?_, hfacets, fun j k hk => ?_⟩
    · -- The last position has all facets.
      have hlast : (t.pathOf id)[properties.length - 1]? = some ((t.pathOf id).getLast hpath) := by
        rw [← hlength, ← List.getLast?_eq_getElem?, List.getLast?_eq_some_getLast hpath]
      have hall := (facets_of_getElem?_pathOf_build hid hlast).1
      have hpos := List.length_pos_iff.2 hproperties
      rw [Nat.sub_add_cancel hpos, List.take_of_length_le (Nat.le_of_eq (length_facetsOf ..)),
        ← hfacets] at hall
      rw [List.getLast?_eq_some_getLast hpath, ext hall]
    · obtain ⟨hk, hdepth⟩ := facets_of_getElem?_pathOf_build hid hk
      exact ⟨hdepth, hfacets ▸ hk⟩

end GroupTree

end GroupedRows
