import Mathlib.Logic.Function.Iterate
import GroupedRows.GroupPath

/-!
# The groups above a path

The groups above a path are its proper beginnings. The chain of parents meets each of
them, deepest first, and the test for ancestry knows them. Being above is a strict order,
in which the groups above one path stand in a line. A path is grown from its facets in
the same way in which the chain of parents takes it apart.
-/

namespace GroupedRows.GroupPath

variable {i j k : GroupPath}

/-- Only without facets there is no path. -/
theorem ofFacets?_eq_none_iff {facets : List Facet} : ofFacets? facets = none ↔ facets = [] := by
  unfold ofFacets?
  split
  · simpa
  · simpa

/-- An ancestor is less deep, and its facets begin those of the group. -/
theorem isAncestorOf_iff : j.isAncestorOf k = true ↔ j.depth < k.depth ∧ j.facets <+: k.facets := by
  rw [isAncestorOf, Bool.and_eq_true, decide_eq_true_eq, List.isPrefixOf_iff_prefix]

/-- No group is above itself. -/
theorem not_isAncestorOf_self (k : GroupPath) : ¬k.isAncestorOf k = true := fun h =>
  Nat.lt_irrefl _ (isAncestorOf_iff.1 h).1

/-- What is above a group is above all groups below it. -/
theorem isAncestorOf_trans (hij : i.isAncestorOf j = true) (hjk : j.isAncestorOf k = true) :
    i.isAncestorOf k = true := by
  obtain ⟨hdij, hpij⟩ := isAncestorOf_iff.1 hij
  obtain ⟨hdjk, hpjk⟩ := isAncestorOf_iff.1 hjk
  exact isAncestorOf_iff.2 ⟨Nat.lt_trans hdij hdjk, hpij.trans hpjk⟩

/-- No two groups are above each other. -/
theorem isAncestorOf_asymm (h : j.isAncestorOf k = true) : ¬k.isAncestorOf j = true := by
  intro h'
  exact not_isAncestorOf_self j (isAncestorOf_trans h h')

/-- The groups above a path begin its facets without the last. -/
theorem isAncestorOf_iff_prefix_dropLast :
    j.isAncestorOf k = true ↔ j.facets <+: k.facets.dropLast := by
  have hpos : 0 < k.facets.length := k.depth_pos
  have hdrop : k.facets.dropLast <+: k.facets := List.dropLast_prefix k.facets
  have hlen : k.facets.dropLast.length = k.facets.length - 1 := List.length_dropLast
  rw [isAncestorOf_iff]
  unfold depth
  constructor
  · rintro ⟨hd, hp⟩
    exact List.prefix_of_prefix_length_le hp hdrop (by omega)
  · intro hp
    have hle := hp.length_le
    exact ⟨by omega, hp.trans hdrop⟩

/-- A path begins with itself and with the groups above it. -/
theorem eq_or_isAncestorOf_iff : j = k ∨ j.isAncestorOf k = true ↔ j.facets <+: k.facets := by
  rw [isAncestorOf_iff]
  constructor
  · rintro (rfl | ⟨_, h⟩)
    · exact List.prefix_rfl
    · exact h
  · intro h
    have hle : j.depth ≤ k.depth := h.length_le
    by_cases hd : j.depth = k.depth
    · exact .inl (ext (h.eq_of_length hd))
    · exact .inr ⟨by omega, h⟩

/-- Two groups above one path begin in the same way, so one of them goes on from the other. -/
theorem eq_or_isAncestorOf_of_isAncestorOf (hi : i.isAncestorOf k = true)
    (hj : j.isAncestorOf k = true) :
    i = j ∨ i.isAncestorOf j = true ∨ j.isAncestorOf i = true := by
  have hprefix : i.facets <+: j.facets ∨ j.facets <+: i.facets :=
    List.prefix_or_prefix_of_prefix (isAncestorOf_iff.1 hi).2 (isAncestorOf_iff.1 hj).2
  rcases hprefix with hij | hji
  · rcases eq_or_isAncestorOf_iff.2 hij with heq | habove
    · exact .inl heq
    · exact .inr (.inl habove)
  · rcases eq_or_isAncestorOf_iff.2 hji with heq | habove
    · exact .inl heq.symm
    · exact .inr (.inr habove)

/-- The chain of parents goes on from the parent. -/
theorem ancestors_eq (k : GroupPath) :
    k.ancestors = match k.parent? with
      | none => []
      | some p => p :: p.ancestors := by
  rw [ancestors]
  split
  · rename_i h
    rw [h]
  · rename_i p h
    rw [h]

/-- The chain of parents is the parent relation, iterated until there is no parent; from there on
iterating leads to no path any more. -/
theorem getElem?_ancestors (k : GroupPath) (n : Nat) :
    k.ancestors[n]? = (Option.bind · parent?)^[n] k.parent? := by
  induction k using ancestors.induct generalizing n with
  | case1 k hk =>
    have hfixed : (Option.bind · parent?) none = (none : Option GroupPath) := rfl
    rw [ancestors_eq, hk, List.getElem?_nil, Function.iterate_fixed hfixed]
  | case2 k p hk ih =>
    rw [ancestors_eq, hk]
    cases n with
    | zero => rfl
    | succ n =>
      rw [List.getElem?_cons_succ, ih, Function.iterate_succ_apply, Option.bind_some]

/-- There are as many groups above a path as it has facets before the last. -/
theorem length_ancestors (k : GroupPath) : k.ancestors.length + 1 = k.depth := by
  induction k using ancestors.induct with
  | case1 k hk =>
    have hroot : k.facets.dropLast.length = 0 :=
      congrArg List.length (ofFacets?_eq_none_iff.1 hk)
    have hpos : 0 < k.facets.length := k.depth_pos
    rw [List.length_dropLast] at hroot
    rw [ancestors_eq, hk, List.length_nil, depth]
    omega
  | case2 k p hk ih => rw [ancestors_eq, hk, List.length_cons, ih, depth_of_parent? hk]

/-- The chain of parents goes up level by level and ends at the first one. -/
theorem map_depth_ancestors (k : GroupPath) :
    k.ancestors.map depth = (List.range' 1 (k.depth - 1)).reverse := by
  rw [← length_ancestors, Nat.add_sub_cancel]
  induction k using ancestors.induct with
  | case1 k hk =>
    rw [ancestors_eq, hk]
    rfl
  | case2 k p hk ih =>
    have hp : 1 + p.ancestors.length = p.depth := by rw [Nat.add_comm, length_ancestors]
    rw [ancestors_eq, hk, List.map_cons, ih, List.length_cons, List.range'_1_concat,
      List.reverse_append, List.reverse_singleton, List.singleton_append, hp]

/-- The chain of parents consists of the groups above. -/
theorem mem_ancestors_iff : j ∈ k.ancestors ↔ j.isAncestorOf k = true := by
  induction k using ancestors.induct with
  | case1 k hk =>
    have hroot : k.facets.dropLast = [] := ofFacets?_eq_none_iff.1 hk
    rw [ancestors_eq, hk, isAncestorOf_iff_prefix_dropLast, hroot]
    simpa using j.ne_nil
  | case2 k p hk ih =>
    have hp : k.facets.dropLast = p.facets := ofFacets?_eq_some_iff.1 hk
    rw [ancestors_eq, hk, List.mem_cons, ih, eq_or_isAncestorOf_iff,
      isAncestorOf_iff_prefix_dropLast, hp]

/-- In the chain of parents the groups above each one follow it. -/
theorem pairwise_cons_ancestors (k : GroupPath) :
    (k :: k.ancestors).Pairwise fun a b => b.isAncestorOf a = true := by
  induction k using ancestors.induct with
  | case1 k hk =>
    rw [ancestors_eq, hk]
    exact List.pairwise_singleton _ _
  | case2 k p hk ih =>
    refine List.pairwise_cons.2 ⟨fun j hj => mem_ancestors_iff.1 hj, ?_⟩
    rw [ancestors_eq, hk]
    exact ih

/-- A group is above its children. -/
theorem isAncestorOf_child (k : GroupPath) (property : String) (value : Value) :
    k.isAncestorOf (k.child property value) = true := by
  rw [← mem_ancestors_iff, ancestors_eq, parent?_child]
  exact List.mem_cons_self

/-- A path that is one facet longer than a list and begins with it adds this facet only. -/
theorem dropLast_eq_of_prefix {facets : List Facet} (hd : k.depth = facets.length + 1)
    (hp : facets <+: k.facets) : k.facets.dropLast = facets := by
  obtain ⟨rest, hrest⟩ := hp
  rw [depth, ← hrest, List.length_append] at hd
  obtain ⟨f, rfl⟩ : ∃ f, rest = [f] := List.length_eq_one_iff.1 (by omega)
  rw [← hrest, List.dropLast_concat]

/-- Children below children carry the facets on. -/
theorem facets_foldl_child (k : GroupPath) (facets : List Facet) :
    (facets.foldl (fun j f => j.child f.property f.value) k).facets = k.facets ++ facets := by
  induction facets generalizing k with
  | nil => rw [List.foldl_nil, List.append_nil]
  | cons f rest ih =>
    rw [List.foldl_cons, ih, facets_child, List.append_assoc, List.singleton_append]

/-- Growing a path child by child leads to the one with these facets. -/
theorem grow?_eq_ofFacets? (facets : List Facet) : grow? facets = ofFacets? facets := by
  cases facets with
  | nil => rfl
  | cons f rest =>
    have hfacets : (rest.foldl (fun j g => j.child g.property g.value)
        (root f.property f.value)).facets = f :: rest := facets_foldl_child _ rest
    rw [grow?, ofFacets?_eq_some_iff.2 hfacets.symm]

/-- The groups above a path are those that its chain of parents meets: the parent, the parent's
parent and so on, one on each level above the path, up to the first. Being above is a strict order,
and of two groups above one path one is above the other. Below a path stand the children made from
it. A path is grown again from its own facets, child by child or at once, and from no others, and
only an empty list of facets gives no path. -/
theorem ancestry_iterates_parent (k : GroupPath) :
    (∀ n, k.ancestors[n]? = (Option.bind · parent?)^[n] k.parent?) ∧
    (∀ j : GroupPath, j.isAncestorOf k = true ↔ j ∈ k.ancestors) ∧
    (k.ancestors.length = k.depth - 1 ∧
      k.ancestors.map depth = (List.range' 1 (k.depth - 1)).reverse) ∧
    (¬k.isAncestorOf k = true ∧
      (∀ i j : GroupPath, i.isAncestorOf j = true → j.isAncestorOf k = true →
        i.isAncestorOf k = true) ∧
      (∀ j : GroupPath, j.isAncestorOf k = true → ¬k.isAncestorOf j = true) ∧
      ∀ i j : GroupPath, i.isAncestorOf k = true → j.isAncestorOf k = true →
        i = j ∨ i.isAncestorOf j = true ∨ j.isAncestorOf i = true) ∧
    (∀ property value,
      (k.child property value).parent? = some k ∧
      (k.child property value).property = property ∧
      (k.child property value).value = value ∧
      (k.child property value).depth = k.depth + 1 ∧
      k.isAncestorOf (k.child property value) = true) ∧
    (∀ facets, (grow? facets = some k ↔ facets = k.facets) ∧
      (ofFacets? facets = some k ↔ facets = k.facets)) ∧
    ∀ facets, (grow? facets = none ↔ facets = []) ∧ (ofFacets? facets = none ↔ facets = []) := by
  refine ⟨getElem?_ancestors k, fun j => mem_ancestors_iff.symm,
    ⟨Nat.eq_sub_of_add_eq (length_ancestors k), map_depth_ancestors k⟩,
    ⟨not_isAncestorOf_self k, fun i j => isAncestorOf_trans, fun j => isAncestorOf_asymm,
      fun i j => eq_or_isAncestorOf_of_isAncestorOf⟩,
    fun property value => ?_, fun facets => ?_, fun facets => ?_⟩
  · have hlast : (k.child property value).last = ⟨property, value⟩ := last_child k property value
    exact ⟨parent?_child k property value, congrArg Facet.property hlast,
      congrArg Facet.value hlast, depth_child k property value, isAncestorOf_child k property value⟩
  · rw [grow?_eq_ofFacets?]
    exact ⟨ofFacets?_eq_some_iff, ofFacets?_eq_some_iff⟩
  · rw [grow?_eq_ofFacets?]
    exact ⟨ofFacets?_eq_none_iff, ofFacets?_eq_none_iff⟩

/-- A group of items without a number is above those made from it, while the two zeros are the
values of different groups. -/
theorem ancestry_iterates_parent_below_zero :
    let k := root "ratio" (.float 0x7ff8000000000000)
    let c := k.child "delta" (.float 0)
    let leaf := c.child "active" (.bool true)
    (k.isAncestorOf c = true ∧ c.isAncestorOf leaf = true) ∧
      k.isAncestorOf leaf = true ∧ ¬leaf.isAncestorOf c = true ∧
      (k = c ∨ k.isAncestorOf c = true ∨ c.isAncestorOf k = true) ∧
      (k.child "delta" (.float 0x8000000000000000)).isAncestorOf leaf = false := by
  intro k c leaf
  have hkc : k.isAncestorOf c = true := by decide
  have hcleaf : c.isAncestorOf leaf = true := by decide
  obtain ⟨-, -, -, ⟨-, htrans, hasymm, hline⟩, -⟩ := ancestry_iterates_parent leaf
  have hkleaf : k.isAncestorOf leaf = true := htrans k c hkc hcleaf
  exact ⟨⟨hkc, hcleaf⟩, hkleaf, hasymm c hcleaf, hline k c hkleaf hcleaf, by decide⟩

end GroupedRows.GroupPath
