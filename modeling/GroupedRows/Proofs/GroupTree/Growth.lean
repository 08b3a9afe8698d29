import GroupedRows.GroupTree.Build
import GroupedRows.Proofs.FirstOccurrence

/-!
# How a group tree grows

An item's facets name the groups that it passes through: the nonempty beginnings of the
list. The tree of some items is determined by their lists of facets: it has a group for
every beginning, and below each group the groups that lie one level further on some
list, in the order of first occurrence. This also holds while an item is on its way
down, if its list is cut where it stands.
-/

namespace GroupedRows

namespace GroupPath

/-- The facets that the paths directly below share: none below nothing. -/
def stem : Option GroupPath → List Facet
  | none => []
  | some k => k.facets

@[simp] theorem stem_none : stem none = [] := rfl

@[simp] theorem stem_some (k : GroupPath) : stem (some k) = k.facets := rfl

/-- A path is determined by its facets. -/
theorem stem_injective : Function.Injective stem := by
  intro q r h
  cases q with
  | none =>
    cases r with
    | none => rfl
    | some k => exact absurd h.symm k.ne_nil
  | some j =>
    cases r with
    | none => exact absurd h j.ne_nil
    | some k => exact congrArg some (ext h)

/-- The path below has one facet more. -/
@[simp] theorem facets_below (q : Option GroupPath) (property : String) (value : Value) :
    (below q property value).facets = stem q ++ [⟨property, value⟩] := by
  cases q <;> rfl

/-- The path whose facets lie one level behind a beginning of a list. -/
def nextOn (above facets : List Facet) : Option GroupPath :=
  if above.isPrefixOf facets then
    facets[above.length]?.map fun f => ⟨above ++ [f], by simp⟩
  else none

/-- The next path is the one that begins the list and goes one level further. -/
theorem nextOn_eq_some_iff {above facets : List Facet} {k : GroupPath} :
    nextOn above facets = some k ↔
      k.facets <+: facets ∧ above <+: k.facets ∧ k.depth = above.length + 1 := by
  unfold nextOn depth
  constructor
  · intro h
    split at h
    · rename_i hp
      obtain ⟨rest, rfl⟩ := List.isPrefixOf_iff_prefix.1 hp
      obtain ⟨f, hf, rfl⟩ := Option.map_eq_some_iff.1 h
      rw [List.getElem?_append_right (Nat.le_refl _), Nat.sub_self] at hf
      cases rest with
      | nil => simp at hf
      | cons g rest =>
        obtain rfl : g = f := by simpa using hf
        exact ⟨⟨rest, by simp⟩, List.prefix_append _ _, by simp⟩
    · exact absurd h (by simp)
  · rintro ⟨⟨tail, rfl⟩, ⟨rest, hk⟩, hlen⟩
    rw [← hk, List.length_append] at hlen
    obtain ⟨f, rfl⟩ : ∃ f, rest = [f] := List.length_eq_one_iff.1 (by omega)
    have hp : above.isPrefixOf (k.facets ++ tail) = true := by
      rw [List.isPrefixOf_iff_prefix, ← hk, List.append_assoc]
      exact List.prefix_append _ _
    rw [if_pos hp, ← hk]
    simp only [List.append_assoc, List.getElem?_append_right (Nat.le_refl _), Nat.sub_self,
      List.cons_append, List.getElem?_cons_zero, Option.map_some, Option.some.injEq]
    exact ext hk

/-- Behind a proper beginning lies a next path. -/
theorem exists_nextOn_eq {above facets : List Facet} (hp : above <+: facets)
    (hlt : above.length < facets.length) : ∃ k, nextOn above facets = some k := by
  unfold nextOn
  rw [if_pos (List.isPrefixOf_iff_prefix.2 hp), List.getElem?_eq_getElem hlt]
  exact ⟨_, rfl⟩

/-- Nothing lies behind the whole list. -/
@[simp] theorem nextOn_self (facets : List Facet) : nextOn facets facets = none := by
  simp [nextOn]

/-- Nothing comes next on an empty list. -/
theorem nextOn_nil_right (above : List Facet) : nextOn above [] = none := by
  simp [nextOn]

/-- One more facet gives the whole former list a next path, and no other beginning. -/
theorem nextOn_concat (above facets : List Facet) (f : Facet) :
    nextOn above (facets ++ [f]) =
      if above = facets then some ⟨facets ++ [f], by simp⟩ else nextOn above facets := by
  split
  · rename_i h
    subst h
    rw [nextOn_eq_some_iff]
    exact ⟨List.prefix_rfl, List.prefix_append _ _, by simp [depth]⟩
  · rename_i h
    refine Option.ext fun k => ?_
    rw [nextOn_eq_some_iff, nextOn_eq_some_iff]
    refine and_congr_left fun h' => ?_
    obtain ⟨ha, hd⟩ := h'
    rw [List.prefix_concat_iff, or_iff_right]
    intro hk
    rw [hk] at ha
    rcases List.prefix_concat_iff.1 ha with ha | ha
    · rw [depth, hk, ha] at hd
      omega
    · refine h (ha.eq_of_length ?_)
      rw [depth, hk, List.length_append, List.length_singleton] at hd
      omega

end GroupPath

namespace GroupTree

open GroupPath

/-- The paths that a tree lists below a path, or below nothing. -/
def listed (t : GroupTree) : Option GroupPath → List GroupPath
  | none => t.roots
  | some k => t.children k

theorem children_eq (t : GroupTree) (k : GroupPath) :
    t.children k = ((t.node? k).map GroupNode.children).getD [] := rfl

/-- Who is no group has no node. -/
theorem node?_of_not_contains {t : GroupTree} {k : GroupPath} (h : t.contains k = false) :
    t.node? k = none := by
  rwa [← node?_isSome, Option.isSome_eq_false_iff, Option.isNone_iff_eq_none] at h

/-- What is no group has no groups below it. -/
theorem children_of_not_contains {t : GroupTree} {k : GroupPath} (h : t.contains k = false) :
    t.children k = [] := by
  rw [children_eq, node?_of_not_contains h]
  rfl

/-- A new group stands under its path and is listed by its parent. -/
theorem node?_addGroup (t : GroupTree) {parent : Option GroupPath} {path : GroupPath}
    (h : parent ≠ some path) (k : GroupPath) :
    (t.addGroup parent path).node? k =
      if path = k then some ⟨path, parent, [], [], 0⟩
      else if parent = some k then
        (t.node? k).map fun n => { n with children := n.children ++ [path] }
      else t.node? k := by
  unfold addGroup node?
  cases parent with
  | none => simp only [OrderedMap.get?_insert, reduceCtorEq, if_false]
  | some p =>
    have hp : path ≠ p := fun e => h (e ▸ rfl)
    simp only [OrderedMap.get?_modify, OrderedMap.get?_insert, Option.some.injEq]
    by_cases hk : path = k
    · subst hk
      simp only [if_neg hp.symm, if_true]
    · by_cases hpk : p = k <;> simp [hk, hpk]

/-- A visit counts the item, after making the group if it is missing. -/
theorem node?_visit (t : GroupTree) (parent : Option GroupPath) (path k : GroupPath) :
    (t.visit parent path).node? k =
      let before := if t.contains path then t.node? k else (t.addGroup parent path).node? k
      if path = k then before.map fun n => { n with count := n.count + 1 } else before := by
  unfold visit node?
  by_cases h : t.contains path = true <;> simp only [h, OrderedMap.get?_modify, if_true, if_false,
    Bool.false_eq_true]

/-- A visited path is a new root if it is new and there is nothing above it. -/
theorem roots_visit (t : GroupTree) (parent : Option GroupPath) (path : GroupPath) :
    (t.visit parent path).roots =
      if t.contains path = false ∧ parent = none then t.roots ++ [path] else t.roots := by
  unfold visit addGroup
  cases parent with
  | none => by_cases h : t.contains path <;> simp [h]
  | some p => by_cases h : t.contains path <;> simp [h]

/-- After a visit there is a group of the path, and otherwise those from before. -/
theorem contains_visit (t : GroupTree) {parent : Option GroupPath} {path : GroupPath}
    (h : parent ≠ some path) (k : GroupPath) :
    (t.visit parent path).contains k = true ↔ path = k ∨ t.contains k = true := by
  rw [← node?_isSome, ← node?_isSome, node?_visit]
  by_cases hc : t.contains path = true
  · simp only [hc, if_true]
    by_cases hk : path = k
    · subst hk
      rw [if_pos rfl, Option.isSome_map, node?_isSome, hc]
      simp
    · simp [hk]
  · simp only [hc, Bool.false_eq_true, if_false, node?_addGroup t h]
    by_cases hk : path = k
    · simp [hk]
    · by_cases hp : parent = some k <;> simp [hk, hp]

/-- A group made by a visit comes last among its siblings; no other list changes. -/
theorem listed_visit (t : GroupTree) {parent : Option GroupPath} {path : GroupPath}
    (h : parent ≠ some path) (hp : ∀ p, parent = some p → t.contains p = true)
    (q : Option GroupPath) :
    (t.visit parent path).listed q =
      if t.contains path = false ∧ parent = q then t.listed q ++ [path] else t.listed q := by
  cases q with
  | none => exact roots_visit t parent path
  | some k =>
    simp only [listed, children_eq, node?_visit]
    by_cases hc : t.contains path = true
    · by_cases hk : path = k
      · subst hk
        simp [hc, Function.comp_def]
      · simp [hc, hk]
    · rw [Bool.not_eq_true] at hc
      simp only [hc, Bool.false_eq_true, if_false, node?_addGroup t h, true_and]
      by_cases hk : path = k
      · subst hk
        have hn := children_of_not_contains hc
        rw [children_eq] at hn
        simp [h, hn]
      · by_cases hpk : parent = some k
        · have hs := hp k hpk
          rw [← node?_isSome] at hs
          obtain ⟨n, hn⟩ := Option.isSome_iff_exists.1 hs
          simp [hk, hpk, hn]
        · simp [hk, hpk]

/-- The groups of a tree and their places are those that some lists of facets call for. -/
structure Grown (t : GroupTree) (paths : List (List Facet)) : Prop where
  contains_iff : ∀ k, t.contains k = true ↔ ∃ p ∈ paths, k.facets <+: p
  listed_eq : ∀ q, t.listed q = (paths.filterMap (nextOn (stem q))).eraseDups
  node : ∀ k n, t.node? k = some n → n.path = k ∧ n.parent = k.parent?

@[simp] theorem properties_start (properties : List String) :
    (start properties).properties = properties := rfl

/-- A tree without items has no groups. -/
theorem grown_start (properties : List String) : Grown (start properties) [] where
  contains_iff k := by simp [start, empty, contains, OrderedMap.contains]
  listed_eq q := by cases q <;> rfl
  node k n h := by simp [start, empty, node?] at h

/-- An item that enters stands above all groups. -/
theorem Grown.enter {t : GroupTree} {paths : List (List Facet)} (h : Grown t paths) :
    Grown t (paths ++ [[]]) where
  contains_iff k := by
    rw [h.contains_iff]
    simp [k.ne_nil]
  listed_eq q := by
    rw [h.listed_eq]
    simp [nextOn_nil_right]
  node := h.node

/-- The item's next group is below the one that it has reached. -/
theorem parent?_below (reached : Option GroupPath) (property : String) (value : Value) :
    (below reached property value).parent? = reached := by
  cases reached with
  | none => rfl
  | some p => exact parent?_child p property value

/-- A path below another is not this one. -/
theorem ne_some_below (reached : Option GroupPath) (property : String) (value : Value) :
    reached ≠ some (below reached property value) := by
  intro h
  have hl := congrArg List.length (congrArg stem h)
  rw [stem_some, facets_below, List.length_append, List.length_singleton] at hl
  omega

/-- A visit leaves every node under its path and below its parent. -/
theorem node_visit {t : GroupTree} {reached : Option GroupPath} {k : GroupPath}
    (h : ∀ j n, t.node? j = some n → n.path = j ∧ n.parent = j.parent?)
    (hne : reached ≠ some k) (hparent : k.parent? = reached) :
    ∀ j n, (t.visit reached k).node? j = some n → n.path = j ∧ n.parent = j.parent? := by
  have hadded : ∀ j n, (t.addGroup reached k).node? j = some n →
      n.path = j ∧ n.parent = j.parent? := by
    intro j n hn
    rw [node?_addGroup t hne] at hn
    split at hn
    · rename_i hj
      obtain rfl := Option.some.inj hn
      exact ⟨hj, by rw [← hj, hparent]⟩
    · split at hn
      · obtain ⟨m, hm, rfl⟩ := Option.map_eq_some_iff.1 hn
        exact h j m hm
      · exact h j n hn
  have hbefore : ∀ j n,
      (if t.contains k then t.node? j else (t.addGroup reached k).node? j) = some n →
      n.path = j ∧ n.parent = j.parent? := by
    intro j n hn
    split at hn
    · exact h j n hn
    · exact hadded j n hn
  intro j n hn
  rw [node?_visit] at hn
  dsimp only at hn
  split at hn
  · obtain ⟨m, hm, rfl⟩ := Option.map_eq_some_iff.1 hn
    exact hbefore j m hm
  · exact hbefore j n hn

/-- Among the lists of all items, only those of other items can call for the group that an item
reaches next. -/
theorem Grown.contains_next_iff {t : GroupTree} {paths : List (List Facet)}
    {reached : Option GroupPath} (h : Grown t (paths ++ [stem reached])) {k : GroupPath} {f : Facet}
    (hk : k.facets = stem reached ++ [f]) :
    t.contains k = true ↔ ∃ p ∈ paths, k.facets <+: p := by
  rw [h.contains_iff]
  simp only [List.mem_append, List.mem_singleton]
  constructor
  · rintro ⟨p, hp | rfl, hpre⟩
    · exact ⟨p, hp, hpre⟩
    · have hle := hpre.length_le
      rw [hk, List.length_append, List.length_singleton] at hle
      omega
  · rintro ⟨p, hp, hpre⟩
    exact ⟨p, .inl hp, hpre⟩

/-- The next group of an item is listed behind the groups that other items have called for. -/
theorem Grown.listed_next {t : GroupTree} {paths : List (List Facet)}
    {reached : Option GroupPath} (h : Grown t (paths ++ [stem reached])) {k : GroupPath} {f : Facet}
    (hk : k.facets = stem reached ++ [f]) (q : Option GroupPath) :
    (if t.contains k = false ∧ reached = q then t.listed q ++ [k] else t.listed q) =
      ((paths ++ [stem reached ++ [f]]).filterMap (nextOn (stem q))).eraseDups := by
  rw [h.listed_eq]
  simp only [List.filterMap_append, List.filterMap_cons, List.filterMap_nil, nextOn_concat]
  by_cases hq : reached = q
  · subst hq
    have hmem : k ∈ paths.filterMap (nextOn (stem reached)) ↔ t.contains k = true := by
      rw [h.contains_next_iff hk, List.mem_filterMap]
      refine exists_congr fun p => and_congr_right fun _ => ?_
      rw [nextOn_eq_some_iff, and_iff_left]
      exact ⟨hk ▸ List.prefix_append _ _, by simp [depth, hk]⟩
    have hkeq : (⟨stem reached ++ [f], by simp⟩ : GroupPath) = k := ext hk.symm
    simp only [nextOn_self, List.append_nil, if_true, hkeq, eraseDups_concat, hmem, and_true]
    by_cases hc : t.contains k = true <;> simp [hc]
  · have hs : stem q ≠ stem reached := fun e => hq (stem_injective e).symm
    simp only [hq, and_false, if_false, if_neg hs]

/-- One level further down, the tree has what the longer list calls for. -/
theorem Grown.visit {t : GroupTree} {paths : List (List Facet)} {reached : Option GroupPath}
    (h : Grown t (paths ++ [stem reached])) (f : Facet) :
    Grown (t.visit reached (below reached f.property f.value))
      (paths ++ [stem reached ++ [f]]) := by
  have hne := ne_some_below reached f.property f.value
  have hparent := parent?_below reached f.property f.value
  have hk : (below reached f.property f.value).facets = stem reached ++ [f] :=
    facets_below reached f.property f.value
  generalize below reached f.property f.value = k at hne hparent hk
  have hreached : ∀ p, reached = some p → t.contains p = true := by
    rintro p rfl
    exact (h.contains_iff p).2 ⟨stem (some p), by simp, List.prefix_rfl⟩
  refine ⟨fun j => ?_, fun q => ?_, node_visit h.node hne hparent⟩
  · rw [contains_visit t hne, h.contains_iff]
    simp only [List.mem_append, List.mem_singleton, or_and_right, exists_or, exists_eq_left,
      List.prefix_concat_iff]
    rw [← hk]
    constructor
    · rintro (rfl | hj | hj)
      · exact .inr (.inl rfl)
      · exact .inl hj
      · exact .inr (.inr hj)
    · rintro (hj | hj | hj)
      · exact .inr (.inl hj)
      · exact .inl (ext hj).symm
      · exact .inr (.inr hj)
  · rw [listed_visit t hne hreached]
    exact h.listed_next hk q

/-- The facets of an item, one for each property. -/
def facetsOf (properties : List String) (lookup : Lookup) (id : ItemId) : List Facet :=
  properties.map fun property => ⟨property, (lookup id property).getD .absent⟩

/-- An item has a facet for each property. -/
@[simp] theorem length_facetsOf (properties : List String) (lookup : Lookup) (id : ItemId) :
    (facetsOf properties lookup id).length = properties.length := by
  simp [facetsOf]

/-- An item that walks down all properties ends at the group of its whole list. -/
theorem stem_descend (value : String → Value) (properties : List String)
    (reached : Option GroupPath) (t : GroupTree) :
    stem (descend value properties reached t).1 =
      stem reached ++ properties.map fun property => ⟨property, value property⟩ := by
  induction properties generalizing reached t with
  | nil => simp [descend]
  | cons property rest ih => simp [descend, ih]

/-- What each visit carries on to one more facet, the walk carries on to all facets. -/
theorem descend_carries {P : GroupTree → List Facet → Prop}
    (hvisit : ∀ {t : GroupTree} {reached : Option GroupPath} (f : Facet), P t (stem reached) →
      P (t.visit reached (below reached f.property f.value)) (stem reached ++ [f]))
    {t : GroupTree} {reached : Option GroupPath} (h : P t (stem reached))
    (value : String → Value) (properties : List String) :
    P (GroupTree.descend value properties reached t).2
      (stem reached ++ properties.map fun property => ⟨property, value property⟩) := by
  induction properties generalizing t reached with
  | nil => simpa [GroupTree.descend] using h
  | cons property rest ih =>
    have hv := hvisit ⟨property, value property⟩ h
    have hk := facets_below reached property (value property)
    rw [← hk, ← stem_some] at hv
    simpa [GroupTree.descend, hk] using ih hv

/-- The walk makes all groups on its way. -/
theorem Grown.descend {t : GroupTree} {paths : List (List Facet)} {reached : Option GroupPath}
    (h : Grown t (paths ++ [stem reached])) (value : String → Value) (properties : List String) :
    Grown (GroupTree.descend value properties reached t).2
      (paths ++ [stem reached ++ properties.map fun property => ⟨property, value property⟩]) :=
  descend_carries (P := fun t facets => Grown t (paths ++ [facets])) (fun f h => h.visit f) h value
    properties

/-- Holding an item changes no list and no place of a group. -/
theorem Grown.hold {t : GroupTree} {paths : List (List Facet)} (h : Grown t paths)
    (leaf : GroupPath) (id : ItemId) : Grown (t.hold leaf id) paths where
  contains_iff k := by
    rw [← h.contains_iff]
    simp [GroupTree.hold, contains]
  listed_eq q := by
    rw [← h.listed_eq]
    cases q with
    | none => rfl
    | some k =>
      simp only [listed, children_eq, node?, GroupTree.hold, OrderedMap.get?_modify]
      split <;> simp [Function.comp_def]
  node k n hn := by
    simp only [node?, GroupTree.hold, OrderedMap.get?_modify] at hn
    split at hn
    · obtain ⟨m, hm, rfl⟩ := Option.map_eq_some_iff.1 hn
      exact h.node k m hm
    · exact h.node k n hn

@[simp] theorem properties_addGroup (t : GroupTree) (parent : Option GroupPath)
    (path : GroupPath) : (t.addGroup parent path).properties = t.properties := by
  cases parent <;> rfl

@[simp] theorem properties_visit (t : GroupTree) (parent : Option GroupPath) (path : GroupPath) :
    (t.visit parent path).properties = t.properties := by
  unfold visit
  split <;> simp

/-- What no visit changes is not changed by the walk. -/
theorem descend_keeps {α : Type} {f : GroupTree → α}
    (hvisit : ∀ t parent path, f (GroupTree.visit t parent path) = f t) (value : String → Value)
    (properties : List String) (reached : Option GroupPath) (t : GroupTree) :
    f (GroupTree.descend value properties reached t).2 = f t := by
  induction properties generalizing reached t with
  | nil => rfl
  | cons property rest ih => rw [GroupTree.descend, ih, hvisit]

@[simp] theorem properties_descend (value : String → Value) (properties : List String)
    (reached : Option GroupPath) (t : GroupTree) :
    (GroupTree.descend value properties reached t).2.properties = t.properties :=
  descend_keeps properties_visit value properties reached t

@[simp] theorem properties_place (lookup : Lookup) (t : GroupTree) (id : ItemId) :
    (place lookup t id).properties = t.properties := by
  unfold place
  generalize hr : GroupTree.descend _ t.properties none t = r
  have hp : r.2.properties = t.properties := hr ▸ properties_descend _ _ _ _
  obtain ⟨leaf, t'⟩ := r
  cases leaf <;> exact hp

/-- An item that has entered calls for all beginnings of its facets. That it is also noted among all
items, with its leaf, plays no part in this. -/
theorem Grown.place {t : GroupTree} {paths : List (List Facet)} (h : Grown t paths)
    (lookup : Lookup) (id : ItemId) :
    Grown (place lookup t id) (paths ++ [facetsOf t.properties lookup id]) := by
  have henter : Grown t (paths ++ [stem none]) := h.enter
  have hd := henter.descend (fun property => (lookup id property).getD .absent) t.properties
  unfold GroupTree.place
  generalize GroupTree.descend _ t.properties none t = r at hd
  obtain ⟨leaf, t'⟩ := r
  cases leaf with
  | none => exact ⟨hd.contains_iff, hd.listed_eq, hd.node⟩
  | some k =>
    have hh := hd.hold k id
    exact ⟨hh.contains_iff, hh.listed_eq, hh.node⟩

/-- Items that enter leave the properties. -/
theorem properties_foldl_place (lookup : Lookup) (items : List ItemId) (t : GroupTree) :
    (items.foldl (GroupTree.place lookup) t).properties = t.properties := by
  induction items generalizing t with
  | nil => rfl
  | cons i rest ih => rw [List.foldl_cons, ih, properties_place]

@[simp] theorem properties_build (items : List ItemId) (properties : List String)
    (lookup : Lookup) : (build items properties lookup).properties = properties :=
  properties_foldl_place lookup items (start properties)

@[simp] theorem items_addGroup (t : GroupTree) (parent : Option GroupPath) (path : GroupPath) :
    (t.addGroup parent path).items = t.items := by
  cases parent <;> rfl

@[simp] theorem items_visit (t : GroupTree) (parent : Option GroupPath) (path : GroupPath) :
    (t.visit parent path).items = t.items := by
  unfold visit
  split <;> simp

/-- The tree lists an item that enters behind the others. -/
@[simp] theorem items_place (lookup : Lookup) (t : GroupTree) (id : ItemId) :
    (place lookup t id).items = t.items ++ [id] := by
  have hd := descend_keeps items_visit (fun property => (lookup id property).getD .absent)
    t.properties none t
  unfold place
  generalize GroupTree.descend _ t.properties none t = r at hd
  obtain ⟨leaf, t'⟩ := r
  have hitems : t'.items = t.items := hd
  cases leaf with
  | none => exact congrArg (· ++ [id]) hitems
  | some k => exact congrArg (· ++ [id]) hitems

@[simp] theorem items_build (items : List ItemId) (properties : List String) (lookup : Lookup) :
    (build items properties lookup).items = items := by
  induction items using List.reverseRecOn with
  | nil => rfl
  | append_singleton items i ih =>
    unfold build at ih ⊢
    rw [List.foldl_append, List.foldl_cons, List.foldl_nil, items_place, ih]

/-- The tree of some items is grown from their lists of facets. -/
theorem grown_build (items : List ItemId) (properties : List String) (lookup : Lookup) :
    Grown (build items properties lookup) (items.map (facetsOf properties lookup)) := by
  induction items using List.reverseRecOn with
  | nil => exact grown_start properties
  | append_singleton items i ih =>
    have h := ih.place lookup i
    rw [properties_build] at h
    rw [build, List.foldl_append, List.map_append]
    exact h

end GroupTree

end GroupedRows
