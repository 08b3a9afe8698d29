import Mathlib.Algebra.GroupWithZero.Nat
import Mathlib.Data.List.Perm.Basic
import GroupedRows.GroupTree.Walk
import GroupedRows.Proofs.GroupTree.PrefixTree

/-!
# Groups partition the items

A group counts the items whose facets its path begins, and it holds those whose facets
are its path. A walk downward collects what the groups on its way hold. All three come
to the same items, because every item below a group either has no further facet or lies
below exactly one of the groups directly below.
-/

namespace GroupedRows

/-! ## Lists -/

/-- A list that two tests share out is the members of the one, then those of the other. -/
theorem filter_append_filter_perm {α : Type} {p q r : α → Bool} {l : List α}
    (hr : ∀ a ∈ l, r a = (p a || q a)) (hdisjoint : ∀ a ∈ l, p a = true → q a = false) :
    (l.filter p ++ l.filter q).Perm (l.filter r) := by
  have hp : (l.filter r).filter p = l.filter p := by
    rw [List.filter_filter]
    refine List.filter_congr fun a ha => ?_
    rw [hr a ha]
    cases p a <;> simp
  have hq : (l.filter r).filter (fun a => !p a) = l.filter q := by
    rw [List.filter_filter]
    refine List.filter_congr fun a ha => ?_
    rw [hr a ha]
    cases hpa : p a with
    | false => simp
    | true => simp [hdisjoint a ha hpa]
  have h := List.filter_append_perm p (l.filter r)
  rwa [hp, hq] at h

/-- The members with a key, sorted by keys that are told apart, are all members with such keys. -/
theorem flatMap_filter_perm {α β : Type} [DecidableEq β] (key : α → Option β) (l : List α)
    {keys : List β} (hkeys : keys.Nodup) :
    (keys.flatMap fun b => l.filter fun a => key a = some b).Perm
      (l.filter fun a => (key a).any (· ∈ keys)) := by
  induction keys with
  | nil => simp
  | cons b rest ih =>
    rw [List.nodup_cons] at hkeys
    rw [List.flatMap_cons]
    refine ((ih hkeys.2).append_left _).trans (filter_append_filter_perm ?_ ?_)
    · intro a _
      cases key a <;> simp
    · intro a _ ha
      have hkey : key a = some b := of_decide_eq_true ha
      simpa [hkey] using hkeys.1

namespace GroupTree

open GroupPath

theorem itemCount_eq (t : GroupTree) (k : GroupPath) :
    t.itemCount k = ((t.node? k).map GroupNode.count).getD 0 := rfl

theorem ownItems_eq (t : GroupTree) (k : GroupPath) :
    t.ownItems k = ((t.node? k).map GroupNode.ownItems).getD [] := rfl

/-! ## One item on its way down -/

/-- To make a group changes nothing of other groups but children, so what is read of a group does
not change if a new group reads like one that is missing. -/
theorem getD_map_addGroup {α : Type} {f : GroupNode → α} {missing : α} (t : GroupTree)
    {parent : Option GroupPath} {path : GroupPath} (h : parent ≠ some path)
    (hc : t.contains path = false) (hnew : f ⟨path, parent, [], [], 0⟩ = missing)
    (hchildren : ∀ n children, f { n with children := children } = f n) (k : GroupPath) :
    (((t.addGroup parent path).node? k).map f).getD missing =
      ((t.node? k).map f).getD missing := by
  rw [node?_addGroup t h]
  by_cases hk : path = k
  · subst hk
    rw [if_pos rfl, node?_of_not_contains hc]
    exact hnew
  · rw [if_neg hk]
    split
    · cases t.node? k with
      | none => rfl
      | some n => exact hchildren n _
    · rfl

/-- A visit counts one item in the group and leaves all other counts alone. -/
theorem itemCount_visit (t : GroupTree) {parent : Option GroupPath} {path : GroupPath}
    (h : parent ≠ some path) (k : GroupPath) :
    (t.visit parent path).itemCount k = t.itemCount k + if path = k then 1 else 0 := by
  simp only [itemCount_eq, node?_visit]
  cases hc : t.contains path with
  | true =>
    by_cases hk : path = k
    · subst hk
      obtain ⟨n, hn⟩ := Option.isSome_iff_exists.1 ((node?_isSome t path).trans hc)
      simp [hn]
    · simp [hk]
  | false =>
    have hmade := getD_map_addGroup (f := GroupNode.count) t h hc rfl (fun _ _ => rfl) k
    rw [← hmade]
    by_cases hk : path = k
    · subst hk
      simp [node?_addGroup t h]
    · simp [hk]

/-- A visit gives no group an item to hold. -/
theorem ownItems_visit (t : GroupTree) {parent : Option GroupPath} {path : GroupPath}
    (h : parent ≠ some path) (k : GroupPath) :
    (t.visit parent path).ownItems k = t.ownItems k := by
  have hcounted : ∀ o : Option GroupNode, ((o.map fun n => { n with count := n.count + 1 }).map
      GroupNode.ownItems).getD [] = (o.map GroupNode.ownItems).getD [] := by
    intro o
    cases o <;> rfl
  simp only [ownItems_eq, node?_visit, apply_ite (Option.map GroupNode.ownItems),
    apply_ite (Option.getD · ([] : List ItemId)), hcounted, ite_self]
  cases hc : t.contains path with
  | true => rfl
  | false => exact getD_map_addGroup t h hc rfl (fun _ _ => rfl) k

/-- On its way down an item is held by no group yet. -/
theorem ownItems_descend (value : String → Value) (properties : List String)
    (reached : Option GroupPath) (t : GroupTree) (k : GroupPath) :
    (descend value properties reached t).2.ownItems k = t.ownItems k := by
  induction properties generalizing reached t with
  | nil => rfl
  | cons property rest ih =>
    rw [descend, ih, ownItems_visit t (ne_some_below reached property (value property))]

/-- Holding an item does not count it. -/
theorem itemCount_hold (t : GroupTree) (leaf : GroupPath) (id : ItemId) (k : GroupPath) :
    (t.hold leaf id).itemCount k = t.itemCount k := by
  simp only [itemCount_eq, node?, hold, OrderedMap.get?_modify]
  split <;> simp [Function.comp_def]

/-- The group that an item has reached holds it behind its other items. -/
theorem ownItems_hold {t : GroupTree} {leaf : GroupPath} (h : t.contains leaf = true)
    (id : ItemId) (k : GroupPath) :
    (t.hold leaf id).ownItems k = t.ownItems k ++ if leaf = k then [id] else [] := by
  obtain ⟨n, hn⟩ := Option.isSome_iff_exists.1 ((node?_isSome t leaf).trans h)
  simp only [ownItems_eq, node?, hold, OrderedMap.get?_modify] at hn ⊢
  by_cases hk : leaf = k
  · subst hk
    simp [hn]
  · simp [hk]

/-! ## Counts -/

/-- Each group has counted the lists of facets that it begins. -/
def Counts (t : GroupTree) (paths : List (List Facet)) : Prop :=
  ∀ k, t.itemCount k = paths.countP fun p => k.facets.isPrefixOf p

/-- Without items nothing is counted. -/
theorem counts_start (properties : List String) : Counts (start properties) [] :=
  fun _ => rfl

/-- One level further down, the item is counted once more: for the path that is the longer list
itself, and for no path that begins the shorter one. -/
theorem Counts.visit {t : GroupTree} {paths : List (List Facet)} {reached : Option GroupPath}
    (h : Counts t (paths ++ [stem reached])) (f : Facet) :
    Counts (t.visit reached (below reached f.property f.value))
      (paths ++ [stem reached ++ [f]]) := by
  intro k
  have hk := facets_below reached f.property f.value
  rw [itemCount_visit t (ne_some_below reached f.property f.value), h k, List.countP_append,
    List.countP_append, Nat.add_assoc, List.countP_singleton, List.countP_singleton]
  congr 1
  by_cases hnew : below reached f.property f.value = k
  · have hlong : k.facets.isPrefixOf (stem reached ++ [f]) = true := by
      rw [← hnew, hk]
      exact List.isPrefixOf_iff_prefix.2 List.prefix_rfl
    have hshort : k.facets.isPrefixOf (stem reached) = false := by
      rw [Bool.eq_false_iff, ne_eq, List.isPrefixOf_iff_prefix]
      intro hp
      have hle := hp.length_le
      rw [← hnew, hk, List.length_append, List.length_singleton] at hle
      omega
    simp [hnew, hlong, hshort]
  · have hne : k.facets ≠ stem reached ++ [f] := fun e => hnew (ext (hk.trans e.symm))
    have hiff : k.facets.isPrefixOf (stem reached ++ [f]) = k.facets.isPrefixOf (stem reached) := by
      rw [Bool.eq_iff_iff, List.isPrefixOf_iff_prefix, List.isPrefixOf_iff_prefix,
        List.prefix_concat_iff, or_iff_right hne]
    simp [hnew, hiff]

/-- On its way down the item is counted once at each level. -/
theorem Counts.descend {t : GroupTree} {paths : List (List Facet)} {reached : Option GroupPath}
    (h : Counts t (paths ++ [stem reached])) (value : String → Value) (properties : List String) :
    Counts (GroupTree.descend value properties reached t).2
      (paths ++ [stem reached ++ properties.map fun property => ⟨property, value property⟩]) :=
  descend_carries (P := fun t facets => Counts t (paths ++ [facets])) (fun f h => h.visit f) h value
    properties

/-- An item that has entered is counted by all groups whose paths begin its facets. -/
theorem Counts.place {t : GroupTree} {paths : List (List Facet)} (h : Counts t paths)
    (lookup : Lookup) (id : ItemId) :
    Counts (place lookup t id) (paths ++ [facetsOf t.properties lookup id]) := by
  have henter : Counts t (paths ++ [stem none]) := by
    intro k
    rw [h k, List.countP_append]
    simp [k.ne_nil]
  have hd := henter.descend (fun property => (lookup id property).getD .absent) t.properties
  unfold GroupTree.place
  generalize GroupTree.descend _ t.properties none t = r at hd
  obtain ⟨reached, t'⟩ := r
  cases reached with
  | none => exact hd
  | some leaf => exact fun k => (itemCount_hold t' leaf id k).trans (hd k)

/-- The counts of the tree of some items are those of their lists of facets. -/
theorem counts_build (items : List ItemId) (properties : List String) (lookup : Lookup) :
    Counts (build items properties lookup) (items.map (facetsOf properties lookup)) := by
  induction items using List.reverseRecOn with
  | nil => exact counts_start properties
  | append_singleton items i ih =>
    have h := ih.place lookup i
    rw [properties_build] at h
    rw [build, List.foldl_append, List.map_append]
    exact h

/-! ## Held items -/

/-- An item is held by the group whose path is its list of facets. -/
theorem ownItems_place {t : GroupTree} {paths : List (List Facet)} (h : Grown t paths)
    (lookup : Lookup) (id : ItemId) (k : GroupPath) :
    (place lookup t id).ownItems k =
      t.ownItems k ++ if facetsOf t.properties lookup id = k.facets then [id] else [] := by
  have henter : Grown t (paths ++ [stem none]) := h.enter
  have hd := henter.descend (fun property => (lookup id property).getD .absent) t.properties
  have hstem := stem_descend (fun property => (lookup id property).getD .absent) t.properties none t
  have hown := ownItems_descend (fun property => (lookup id property).getD .absent) t.properties
    none t k
  unfold place
  generalize descend _ t.properties none t = r at hd hstem hown
  obtain ⟨reached, t'⟩ := r
  have hfacets : stem reached = facetsOf t.properties lookup id := hstem
  rw [← hfacets]
  cases reached with
  | none =>
    have hne : stem none ≠ k.facets := fun e => k.ne_nil e.symm
    rw [if_neg hne, List.append_nil]
    exact hown
  | some leaf =>
    have hc : t'.contains leaf = true := by
      rw [hd.contains_iff]
      exact ⟨_, List.mem_append_right _ (List.mem_singleton_self _), hstem ▸ List.prefix_rfl⟩
    have hiff : stem (some leaf) = k.facets ↔ leaf = k := ⟨ext, congrArg facets⟩
    rw [← hown, if_congr hiff rfl rfl]
    exact ownItems_hold hc id k

/-- A group holds the items whose facets are its path, in their order. -/
theorem ownItems_build (items : List ItemId) (properties : List String) (lookup : Lookup)
    (k : GroupPath) :
    (build items properties lookup).ownItems k =
      items.filter fun i => facetsOf properties lookup i = k.facets := by
  induction items using List.reverseRecOn with
  | nil => rfl
  | append_singleton items i ih =>
    have h := ownItems_place (grown_build items properties lookup) lookup i k
    rw [properties_build, ih] at h
    have hone : [i].filter (fun i => facetsOf properties lookup i = k.facets) =
        if facetsOf properties lookup i = k.facets then [i] else [] := by
      simp [List.filter_cons]
    rw [List.filter_append, hone, ← h, build, List.foldl_append]
    rfl

/-- Only deepest groups hold items. -/
theorem ownItems_build_eq_nil {items : List ItemId} {properties : List String} {lookup : Lookup}
    {k : GroupPath}
    (h : k.depth ≠ properties.length ∨ (build items properties lookup).contains k = false) :
    (build items properties lookup).ownItems k = [] := by
  rcases h with h | h
  · rw [ownItems_build, List.filter_eq_nil_iff]
    intro i _ hi
    apply h
    rw [depth, ← of_decide_eq_true hi, length_facetsOf]
  · rw [ownItems_eq, node?_of_not_contains h]
    rfl

/-- A deepest group holds the items that have led to it. -/
theorem ownItems_build_ne_nil {items : List ItemId} {properties : List String} {lookup : Lookup}
    {k : GroupPath} (hk : (build items properties lookup).contains k = true)
    (hd : k.depth = properties.length) : (build items properties lookup).ownItems k ≠ [] := by
  obtain ⟨i, hi, hki⟩ := contains_build_iff.1 hk
  have hfacets : facetsOf properties lookup i = k.facets :=
    (hki.eq_of_length (hd.trans (length_facetsOf properties lookup i).symm)).symm
  rw [ownItems_build]
  exact List.ne_nil_of_mem (List.mem_filter.2 ⟨hi, decide_eq_true hfacets⟩)

/-! ## What walks collect -/

section Build

variable (items : List ItemId) (properties : List String) (lookup : Lookup)

/-- An item below a path has this path as its facets, or is below one of those listed there. -/
theorem isPrefixOf_eq_or (above facets : List Facet) :
    above.isPrefixOf facets =
      (decide (facets = above) || (nextOn above facets).isSome) := by
  rw [Bool.eq_iff_iff, Bool.or_eq_true, decide_eq_true_eq, List.isPrefixOf_iff_prefix]
  constructor
  · rintro ⟨rest, rfl⟩
    cases rest with
    | nil => exact .inl (List.append_nil above)
    | cons f rest =>
      refine .inr (Option.isSome_iff_exists.2 ⟨⟨above ++ [f], by simp⟩, nextOn_eq_some_iff.2 ?_⟩)
      exact ⟨⟨rest, by simp⟩, List.prefix_append _ _, by simp [depth]⟩
  · rintro (rfl | h)
    · exact List.prefix_rfl
    · obtain ⟨k, hk⟩ := Option.isSome_iff_exists.1 h
      obtain ⟨hpath, habove, _⟩ := nextOn_eq_some_iff.1 hk
      exact habove.trans hpath

/-- The groups listed below a path share out the items that are further down. -/
theorem flatMap_listed_build_perm (q : Option GroupPath) :
    (((build items properties lookup).listed q).flatMap fun c =>
        items.filter fun i => c.facets.isPrefixOf (facetsOf properties lookup i)).Perm
      (items.filter fun i => (nextOn (stem q) (facetsOf properties lookup i)).isSome) := by
  have hlisted := (grown_build items properties lookup).listed_eq q
  have hnodup : ((build items properties lookup).listed q).Nodup := hlisted ▸ nodup_eraseDups _
  have hkey : ∀ c ∈ (build items properties lookup).listed q, ∀ i,
      c.facets.isPrefixOf (facetsOf properties lookup i) =
        decide (nextOn (stem q) (facetsOf properties lookup i) = some c) := by
    intro c hc i
    obtain ⟨hd, ha, _⟩ := (mem_listed_build items properties lookup q c).1 hc
    rw [Bool.eq_iff_iff, decide_eq_true_eq, nextOn_eq_some_iff, List.isPrefixOf_iff_prefix,
      and_iff_left ⟨ha, hd⟩]
  have hcovered : ∀ i ∈ items, (nextOn (stem q) (facetsOf properties lookup i)).isSome =
      (nextOn (stem q) (facetsOf properties lookup i)).any
        (· ∈ (build items properties lookup).listed q) := by
    intro i hi
    cases hn : nextOn (stem q) (facetsOf properties lookup i) with
    | none => rfl
    | some c =>
      have hc : c ∈ (build items properties lookup).listed q := by
        rw [hlisted, List.mem_eraseDups, List.mem_filterMap]
        exact ⟨_, List.mem_map_of_mem hi, hn⟩
      simp [hc]
  rw [List.filter_congr hcovered]
  refine .trans (.of_eq ?_) (flatMap_filter_perm
    (fun i => nextOn (stem q) (facetsOf properties lookup i)) items hnodup)
  refine List.flatMap_congr fun c hc => ?_
  exact List.filter_congr fun i _ => hkey c hc i

variable {items properties lookup}

/-- A walk that is long enough collects the items whose facets a path begins. -/
theorem itemsWithin_build_perm {levels : Nat} {k : GroupPath}
    (h : properties.length < levels + k.depth) :
    ((build items properties lookup).itemsWithin levels k).Perm
      (items.filter fun i => k.facets.isPrefixOf (facetsOf properties lookup i)) := by
  induction levels generalizing k with
  | zero =>
    refine .of_eq (Eq.symm (List.filter_eq_nil_iff.2 fun i _ hi => ?_))
    have hle := (List.isPrefixOf_iff_prefix.1 hi).length_le
    rw [length_facetsOf] at hle
    unfold depth at h
    omega
  | succ levels ih =>
    have hbelow : ∀ c ∈ (build items properties lookup).children k,
        ((build items properties lookup).itemsWithin levels c).Perm
          (items.filter fun i => c.facets.isPrefixOf (facetsOf properties lookup i)) := by
      intro c hc
      have hd := depth_of_mem_children_build hc
      exact ih (by omega)
    rw [itemsWithin, ownItems_build]
    refine (((List.Perm.flatMap_left _ hbelow).trans
      (flatMap_listed_build_perm items properties lookup (some k))).append_left _).trans ?_
    refine filter_append_filter_perm (fun i _ => isPrefixOf_eq_or _ _) fun i _ hi => ?_
    rw [of_decide_eq_true hi, stem_some, nextOn_self]
    rfl

/-- A walk that is long enough collects no more if it may go on. -/
theorem itemsWithin_build_succ {levels : Nat} {k : GroupPath}
    (h : properties.length < levels + k.depth) :
    (build items properties lookup).itemsWithin (levels + 1) k =
      (build items properties lookup).itemsWithin levels k := by
  induction levels generalizing k with
  | zero =>
    have hdepth : k.depth ≠ properties.length := by omega
    have hown : (build items properties lookup).ownItems k = [] :=
      ownItems_build_eq_nil (.inl hdepth)
    simp [itemsWithin, hown]
  | succ levels ih =>
    rw [itemsWithin, itemsWithin]
    congr 1
    refine List.flatMap_congr fun c hc => ih ?_
    have hd := depth_of_mem_children_build hc
    omega

/-- The items of a group at any level below are those whose facets the group begins. -/
theorem allItems_build_perm (k : GroupPath) :
    ((build items properties lookup).allItems k).Perm
      (items.filter fun i => k.facets.isPrefixOf (facetsOf properties lookup i)) := by
  have hpos := k.depth_pos
  refine itemsWithin_build_perm ?_
  rw [levels, properties_build]
  omega

/-- Above the deepest level, the items of a group are those of the groups directly below. -/
theorem allItems_build_of_lt {k : GroupPath} (h : k.depth < properties.length) :
    (build items properties lookup).allItems k =
      ((build items properties lookup).children k).flatMap
        (build items properties lookup).allItems := by
  have hown : (build items properties lookup).ownItems k = [] :=
    ownItems_build_eq_nil (.inl (Nat.ne_of_lt h))
  obtain ⟨levels, hlevels⟩ : ∃ levels, properties.length = levels + 1 :=
    ⟨properties.length - 1, by omega⟩
  have hall : (build items properties lookup).levels = levels + 1 := by
    rw [GroupTree.levels, properties_build, hlevels]
  unfold allItems
  rw [hall, itemsWithin, hown, List.nil_append]
  refine List.flatMap_congr fun c hc => (itemsWithin_build_succ ?_).symm
  have hd := depth_of_mem_children_build hc
  have hpos := k.depth_pos
  omega

/-- At the deepest level, the items of a group are those that it holds. -/
theorem allItems_build_of_le {k : GroupPath} (h : properties.length ≤ k.depth) :
    (build items properties lookup).allItems k = (build items properties lookup).ownItems k := by
  have hchildren : (build items properties lookup).children k = [] :=
    children_build_eq_nil (.inl h)
  unfold allItems
  cases hl : (build items properties lookup).levels with
  | zero =>
    rw [GroupTree.levels, properties_build] at hl
    have hpos := k.depth_pos
    exact (ownItems_build_eq_nil (.inl (by omega))).symm
  | succ levels => simp [itemsWithin, hchildren]

/-- The count of a group is the number of its items. -/
theorem itemCount_build (k : GroupPath) :
    (build items properties lookup).itemCount k =
      ((build items properties lookup).allItems k).length := by
  rw [(allItems_build_perm k).length_eq, counts_build, List.countP_map,
    List.countP_eq_length_filter]
  rfl

/-- All items together are the items of the roots. -/
theorem flatMap_roots_build_perm (h : properties ≠ []) :
    ((build items properties lookup).roots.flatMap
      (build items properties lookup).allItems).Perm items := by
  have hall : ∀ i ∈ items, (nextOn (stem none) (facetsOf properties lookup i)).isSome = true := by
    intro i _
    have hor := isPrefixOf_eq_or [] (facetsOf properties lookup i)
    have hne : facetsOf properties lookup i ≠ [] := by simpa [facetsOf] using h
    simpa [hne] using hor.symm
  have hlisted := flatMap_listed_build_perm items properties lookup none
  rw [List.filter_eq_self.2 hall] at hlisted
  exact (List.Perm.flatMap_left _ fun r _ => allItems_build_perm r).trans hlisted

end Build

/-- Grouping by some properties shares the items out. A group holds the items whose facets are its
path, in their order, which only deepest groups do. The items at any level below it are those of
the groups directly below, one group after the other, or at the deepest level those that it
holds; they are the items whose facets its path begins, each as often as it occurs, and the group
has counted them. All roots together have every item as often as it occurs. -/
theorem build_partitions_items (items : List ItemId) (properties : List String) (lookup : Lookup)
    (hproperties : properties ≠ []) :
    let t := build items properties lookup
    let path := facetsOf properties lookup
    (∀ k, t.ownItems k = items.filter fun i => path i = k.facets) ∧
    (∀ k, k.depth < properties.length ∨ t.contains k = false → t.ownItems k = []) ∧
    (∀ k, t.allItems k =
      if k.depth < properties.length then (t.children k).flatMap t.allItems else t.ownItems k) ∧
    (∀ k, (t.allItems k).Perm (items.filter fun i => k.facets.isPrefixOf (path i))) ∧
    (∀ k, t.itemCount k = (t.allItems k).length) ∧
    (∀ k, k.depth < properties.length → t.itemCount k = ((t.children k).map t.itemCount).sum) ∧
    (t.roots.flatMap t.allItems).Perm items ∧
    (t.roots.map t.itemCount).sum = items.length := by
  intro t path
  have hcount : ∀ groups : List GroupPath,
      (groups.map t.itemCount).sum = (groups.flatMap t.allItems).length := by
    intro groups
    rw [List.length_flatMap, funext itemCount_build]
  have hroots : (t.roots.flatMap t.allItems).Perm items := flatMap_roots_build_perm hproperties
  refine ⟨ownItems_build items properties lookup, fun k h => ?_, fun k => ?_, allItems_build_perm,
    itemCount_build, fun k h => ?_, hroots, ?_⟩
  · exact ownItems_build_eq_nil (h.imp_left Nat.ne_of_lt)
  · split
    · rename_i h
      exact allItems_build_of_lt h
    · rename_i h
      exact allItems_build_of_le (Nat.not_lt.1 h)
  · rw [hcount, ← allItems_build_of_lt h, itemCount_build]
  · rw [hcount, hroots.length_eq]

/-- An identifier that occurs twice is held and counted twice. -/
theorem build_partitions_repeated_items :
    let items : List ItemId := [.number 1, .number 2, .number 1]
    let lookup : Lookup := fun i _ => if i = .number 1 then some .null else none
    let t := build items ["kind", "size"] lookup
    ["kind", "size"] ≠ [] ∧ t.itemCount (.root "kind" .null) = 2 ∧
      t.allItems (.root "kind" .null) = [.number 1, .number 1] ∧
      (t.roots.flatMap t.allItems).Perm items := by
  intro items lookup t
  have h := build_partitions_items items ["kind", "size"] lookup (by decide)
  exact ⟨by decide, by decide, by decide, h.2.2.2.2.2.2.1⟩

end GroupTree

end GroupedRows
