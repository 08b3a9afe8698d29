import GroupedRows.Proofs.GroupTree.PrefixTree

/-!
# Groups under two lists of properties

A path names a property on each of its levels. So a group under one list of properties is
a group of the same items under another list exactly if the two lists begin alike down to
the level of the group, also where they repeat or reorder properties.
-/

namespace GroupedRows.GroupTree

open GroupPath

/-- Number of levels down to which two lists of properties begin alike. -/
def sharedDepth : List String → List String → Nat
  | p :: old, q :: new => if p = q then sharedDepth old new + 1 else 0
  | _, _ => 0

/-- The longest common beginning of two lists has this length. -/
theorem le_sharedDepth_iff {d : Nat} {old new : List String} :
    d ≤ sharedDepth old new ↔
      ∃ shared : List String, shared.length = d ∧ shared <+: old ∧ shared <+: new := by
  induction old generalizing d new with
  | nil =>
    simp only [sharedDepth, Nat.le_zero, List.prefix_nil]
    exact ⟨fun h => ⟨[], h ▸ rfl, rfl, List.nil_prefix⟩, fun ⟨_, h, hnil, _⟩ => by simp [← h, hnil]⟩
  | cons p old ih =>
    cases new with
    | nil =>
      simp only [sharedDepth, Nat.le_zero, List.prefix_nil]
      exact ⟨fun h => ⟨[], h ▸ rfl, List.nil_prefix, rfl⟩,
        fun ⟨_, h, _, hnil⟩ => by simp [← h, hnil]⟩
    | cons q new =>
      rw [sharedDepth]
      constructor
      · intro h
        cases d with
        | zero => exact ⟨[], rfl, List.nil_prefix, List.nil_prefix⟩
        | succ d =>
          split at h
          · rename_i hpq
            obtain ⟨shared, hlen, hold, hnew⟩ := ih.1 (Nat.le_of_succ_le_succ h)
            subst hpq
            exact ⟨p :: shared, congrArg (· + 1) hlen, List.cons_prefix_cons.2 ⟨rfl, hold⟩,
              List.cons_prefix_cons.2 ⟨rfl, hnew⟩⟩
          · exact absurd h (Nat.not_succ_le_zero d)
      · rintro ⟨shared, rfl, hold, hnew⟩
        cases shared with
        | nil => exact Nat.zero_le _
        | cons r shared =>
          obtain ⟨hp, hold⟩ := List.cons_prefix_cons.1 hold
          obtain ⟨hq, hnew⟩ := List.cons_prefix_cons.1 hnew
          rw [if_pos (hp.symm.trans hq)]
          exact Nat.succ_le_succ (ih.2 ⟨shared, rfl, hold, hnew⟩)

/-- A list that is continued shares all its levels. -/
theorem length_le_sharedDepth_append (old more : List String) :
    old.length ≤ sharedDepth old (old ++ more) ∧ old.length ≤ sharedDepth (old ++ more) old :=
  ⟨le_sharedDepth_iff.2 ⟨old, rfl, List.prefix_rfl, List.prefix_append _ _⟩,
    le_sharedDepth_iff.2 ⟨old, rfl, List.prefix_append _ _, List.prefix_rfl⟩⟩

/-- What begins an item's facets names the first properties of the list. -/
theorem map_property_of_prefix_facetsOf {properties : List String} {lookup : Lookup} {i : ItemId}
    {facets : List Facet} (h : facets <+: facetsOf properties lookup i) :
    facets.map Facet.property <+: properties ∧
      facets = facetsOf (facets.map Facet.property) lookup i := by
  obtain ⟨first, hfirst, rfl⟩ := List.prefix_map_iff.1 h
  have hnames : (first.map fun property =>
      (⟨property, (lookup i property).getD .absent⟩ : Facet)).map Facet.property = first := by
    rw [List.map_map]
    exact List.map_id first
  exact ⟨hnames.symm ▸ hfirst, congrArg (facetsOf · lookup i) hnames.symm⟩

/-- A group under one list of properties is a group under another as far as the lists begin alike,
since the properties of a group are the beginning of the list that is as long as the group is
deep. -/
theorem contains_build_iff_of_contains {items : List ItemId} {old new : List String}
    {lookup : Lookup} {k : GroupPath} (h : (build items old lookup).contains k = true) :
    (build items new lookup).contains k = true ↔ k.depth ≤ sharedDepth old new := by
  obtain ⟨i, hi, hk⟩ := contains_build_iff.1 h
  obtain ⟨hnames, hfacets⟩ := map_property_of_prefix_facetsOf hk
  rw [contains_build_iff, le_sharedDepth_iff]
  constructor
  · rintro ⟨j, -, hk'⟩
    exact ⟨_, List.length_map _, hnames, (map_property_of_prefix_facetsOf hk').1⟩
  · rintro ⟨shared, hlen, hshared, hprefix⟩
    have hlen' : (k.facets.map Facet.property).length = shared.length := by
      rw [hlen, List.length_map, depth]
    have hsame : k.facets.map Facet.property = shared :=
      (List.prefix_of_prefix_length_le hnames hshared (Nat.le_of_eq hlen')).eq_of_length hlen'
    refine ⟨i, hi, ?_⟩
    rw [hfacets, hsame]
    exact hprefix.map _

end GroupedRows.GroupTree
