import GroupedRows.Proofs.GroupTree.Growth

/-!
# The group tree is the prefix tree of the items' facets

The groups of a built tree are the nonempty beginnings of the items' lists of facets.
Below each group, and at the roots, stand the beginnings that are one facet longer, each
once, in the order of the first items that have them.
-/

namespace GroupedRows.GroupTree

open GroupPath

/-- Groups without repetition, in the order of the first items whose facets they begin. -/
structure ByFirstItem (facets : ItemId → List Facet) (items : List ItemId)
    (groups : List GroupPath) : Prop where
  nodup : groups.Nodup
  sorted : groups.Pairwise fun j k =>
    items.findIdx (fun i => j.facets.isPrefixOf (facets i)) <
      items.findIdx fun i => k.facets.isPrefixOf (facets i)

/-- The group tree lists the beginnings that are one facet longer. -/
theorem mem_listed_build (items : List ItemId) (properties : List String) (lookup : Lookup)
    (q : Option GroupPath) (k : GroupPath) :
    k ∈ (build items properties lookup).listed q ↔
      k.depth = (stem q).length + 1 ∧ stem q <+: k.facets ∧
        ∃ i ∈ items, k.facets <+: facetsOf properties lookup i := by
  rw [(grown_build items properties lookup).listed_eq, List.mem_eraseDups, List.filterMap_map,
    List.mem_filterMap]
  simp only [Function.comp_apply, nextOn_eq_some_iff]
  constructor
  · rintro ⟨i, hi, hk, ha, hd⟩
    exact ⟨hd, ha, i, hi, hk⟩
  · rintro ⟨hd, ha, i, hi, hk⟩
    exact ⟨i, hi, hk, ha, hd⟩

/-- The groups are the nonempty beginnings of the items' facets. -/
theorem contains_build_iff {items : List ItemId} {properties : List String} {lookup : Lookup}
    {k : GroupPath} : (build items properties lookup).contains k = true ↔
      ∃ i ∈ items, k.facets <+: facetsOf properties lookup i := by
  rw [(grown_build items properties lookup).contains_iff]
  simp

/-- No group lies deeper than the list of properties reaches. -/
theorem depth_le_of_contains_build {items : List ItemId} {properties : List String}
    {lookup : Lookup} {k : GroupPath} (h : (build items properties lookup).contains k = true) :
    k.depth ≤ properties.length := by
  obtain ⟨i, -, hk⟩ := contains_build_iff.1 h
  exact length_facetsOf properties lookup i ▸ hk.length_le

/-- A group listed below another lies one level further down. -/
theorem depth_of_mem_children_build {items : List ItemId} {properties : List String}
    {lookup : Lookup} {k c : GroupPath} (h : c ∈ (build items properties lookup).children k) :
    c.depth = k.depth + 1 :=
  ((mem_listed_build items properties lookup (some k) c).1 h).1

/-- Only items under a group can name a group directly below it. -/
theorem filterMap_nextOn_filter (facets : ItemId → List Facet) (above : List Facet)
    (items : List ItemId) :
    (items.filter fun i => above.isPrefixOf (facets i)).filterMap (fun i => nextOn above (facets i))
      = items.filterMap fun i => nextOn above (facets i) := by
  rw [List.filterMap_filter]
  congr 1
  funext i
  unfold nextOn
  split <;> rfl

/-- The groups listed below a path stand in the order of the first items under it. The items under a
listed group are those for which it is the next group below the path. -/
theorem byFirstItem_listed_build (items : List ItemId) (properties : List String)
    (lookup : Lookup) (q : Option GroupPath) :
    ByFirstItem (facetsOf properties lookup)
      (items.filter fun i => (stem q).isPrefixOf (facetsOf properties lookup i))
      ((build items properties lookup).listed q) := by
  have hl := (grown_build items properties lookup).listed_eq q
  rw [List.filterMap_map, Function.comp_def, ← filterMap_nextOn_filter] at hl
  refine ⟨hl ▸ nodup_eraseDups _, ?_⟩
  have hs := pairwise_findIdx_eraseDups
    (fun i => nextOn (stem q) (facetsOf properties lookup i))
    (items.filter fun i => (stem q).isPrefixOf (facetsOf properties lookup i))
  rw [← hl] at hs
  have hnext : ∀ k ∈ (build items properties lookup).listed q, ∀ i,
      decide (nextOn (stem q) (facetsOf properties lookup i) = some k) =
        k.facets.isPrefixOf (facetsOf properties lookup i) := by
    intro k hk i
    obtain ⟨hd, ha, _⟩ := (mem_listed_build items properties lookup q k).1 hk
    rw [Bool.eq_iff_iff, decide_eq_true_eq, nextOn_eq_some_iff, List.isPrefixOf_iff_prefix,
      and_iff_left ⟨ha, hd⟩]
  refine hs.imp_of_mem fun {j k} hj hk hjk => ?_
  rwa [funext (hnext j hj), funext (hnext k hk)] at hjk

/-- The walk down asks for the values of its properties only. -/
theorem descend_congr {value value' : String → Value} {properties : List String}
    (h : ∀ p ∈ properties, value' p = value p) (reached : Option GroupPath) (t : GroupTree) :
    descend value' properties reached t = descend value properties reached t := by
  induction properties generalizing reached t with
  | nil => rfl
  | cons p rest ih =>
    rw [descend, descend, h p List.mem_cons_self]
    exact ih (fun p hp => h p (List.mem_cons_of_mem _ hp)) _ _

/-- The tree depends on the items' facets only. -/
theorem build_congr {items : List ItemId} {properties : List String} {lookup lookup' : Lookup}
    (h : ∀ i ∈ items, facetsOf properties lookup' i = facetsOf properties lookup i) :
    build items properties lookup' = build items properties lookup := by
  induction items using List.reverseRecOn with
  | nil => rfl
  | append_singleton items i ih =>
    have hi := h i (by simp)
    have hv : ∀ p ∈ properties, (lookup' i p).getD .absent = (lookup i p).getD .absent := by
      intro p hp
      have hf := List.map_inj_left.1 hi p hp
      exact congrArg Facet.value hf
    have ih' := ih fun j hj => h j (by simp [hj])
    unfold build at ih' ⊢
    rw [List.foldl_append, List.foldl_append, ih']
    simp only [List.foldl_cons, List.foldl_nil, place, properties_foldl_place,
      properties_start, descend_congr hv]

/-- Below a path that is as long as the lists of facets, or that is no group, stands nothing. -/
theorem children_build_eq_nil {items : List ItemId} {properties : List String} {lookup : Lookup}
    {k : GroupPath}
    (h : properties.length ≤ k.depth ∨ (build items properties lookup).contains k = false) :
    (build items properties lookup).children k = [] := by
  rcases h with h | h
  · rw [List.eq_nil_iff_forall_not_mem]
    intro c hc
    obtain ⟨hd, _, i, _, hp⟩ := (mem_listed_build items properties lookup (some k) c).1 hc
    have hle := hp.length_le
    rw [length_facetsOf] at hle
    change c.facets.length = k.facets.length + 1 at hd
    change properties.length ≤ k.facets.length at h
    omega
  · exact children_of_not_contains h

/-- Above the deepest level, the items of a group lead on to some group below it. -/
theorem children_build_ne_nil {items : List ItemId} {properties : List String} {lookup : Lookup}
    {k : GroupPath} (hk : (build items properties lookup).contains k = true)
    (hd : k.depth < properties.length) : (build items properties lookup).children k ≠ [] := by
  obtain ⟨i, hi, hki⟩ := contains_build_iff.1 hk
  have hlonger : k.facets.length < (facetsOf properties lookup i).length := by
    rw [length_facetsOf]
    exact hd
  obtain ⟨c, hc⟩ := exists_nextOn_eq hki hlonger
  obtain ⟨hci, hkc, hcd⟩ := nextOn_eq_some_iff.1 hc
  have hlisted : c ∈ (build items properties lookup).listed (some k) :=
    (mem_listed_build items properties lookup (some k) c).2 ⟨hcd, hkc, i, hi, hci⟩
  exact List.ne_nil_of_mem hlisted

/-- The groups of a built tree are the nonempty beginnings of the items' facets. The roots are
those of one facet and the groups below a group are those one facet longer, each once and in the
order of the first items under it; the parent is the path without its last facet. Nothing but the
facets of the items matters. -/
theorem build_is_prefix_tree (items : List ItemId) (properties : List String) (lookup : Lookup) :
    let t := build items properties lookup
    let path := facetsOf properties lookup
    (∀ k, t.contains k = true ↔ ∃ i ∈ items, k.facets <+: path i) ∧
    (∀ k, k ∈ t.roots ↔ k.depth = 1 ∧ ∃ i ∈ items, k.facets <+: path i) ∧
    ByFirstItem path items t.roots ∧
    (∀ k c, c ∈ t.children k ↔
      c.depth = k.depth + 1 ∧ k.facets <+: c.facets ∧ ∃ i ∈ items, c.facets <+: path i) ∧
    (∀ k, ByFirstItem path (items.filter fun i => k.facets.isPrefixOf (path i)) (t.children k)) ∧
    (∀ k, properties.length ≤ k.depth ∨ t.contains k = false → t.children k = []) ∧
    (∀ k n, t.node? k = some n → n.path = k ∧ n.parent = k.parent?) ∧
    ∀ lookup', (∀ i ∈ items, facetsOf properties lookup' i = path i) →
      build items properties lookup' = t := by
  intro t path
  have hg : Grown t (items.map path) := grown_build items properties lookup
  refine ⟨fun k => ?_, fun k => ?_, ?_, fun k c => ?_, fun k => ?_, fun k h => ?_, hg.node,
    fun lookup' h => build_congr h⟩
  · rw [hg.contains_iff]
    simp
  · have h := mem_listed_build items properties lookup none k
    rw [stem_none, List.length_nil] at h
    rw [show t.roots = t.listed none from rfl, h]
    simp [path]
  · have h := byFirstItem_listed_build items properties lookup none
    rwa [List.filter_eq_self.2 fun i _ => by simp] at h
  · exact mem_listed_build items properties lookup (some k) c
  · exact byFirstItem_listed_build items properties lookup (some k)
  · exact children_build_eq_nil h

end GroupedRows.GroupTree
