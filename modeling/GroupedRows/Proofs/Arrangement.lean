import GroupedRows.Arrangement
import GroupedRows.Proofs.GroupTree.Walks

/-!
# Coherent arrangements

What a table shows fits together: the tree has been built, only groups of the tree are
open, and a snapshot that is kept is the one that would be taken now. Every way to change
an arrangement keeps this.
-/

namespace GroupedRows

/-- A change of what a table shows, other than by a new tree. -/
inductive Arrangement.Alters (a : Arrangement) : Arrangement → Prop where
  | expand (k : GroupPath) : a.canExpand k = true → Alters a (a.expand k)
  | collapse (k : GroupPath) : Alters a (a.collapse k)
  | expandAll : Alters a a.expandAll
  | collapseAll : Alters a a.collapseAll
  | look : Alters a a.looked

/-- The tree has been built from some items by its properties. -/
def GroupTree.IsBuilt (t : GroupTree) : Prop :=
  ∃ items lookup, t = .build items t.properties lookup

/-- What is built is a built tree. -/
theorem GroupTree.isBuilt_build (items : List ItemId) (properties : List String)
    (lookup : Lookup) : (build items properties lookup).IsBuilt :=
  ⟨items, lookup, by rw [properties_build]⟩

/-- Without grouping there are no groups that could be open. -/
theorem GroupTree.IsBuilt.eq_empty {t : GroupTree} (ht : t.IsBuilt)
    (hgroups : t.hasGroups = false) {e : Expansion} (h : ∀ k ∈ e, t.contains k = true) :
    e = .empty := by
  have hp : t.properties = [] := by simpa [hasGroups] using hgroups
  have hmem : ∀ k, k ∉ e := by
    intro k hk
    obtain ⟨items, lookup, hb⟩ := ht
    have hc := h k hk
    rw [hb, hp, contains_build_nil] at hc
    exact Bool.false_ne_true hc
  obtain ⟨paths, hnodup⟩ := e
  obtain rfl : paths = [] := List.eq_nil_iff_forall_not_mem.2 hmem
  rfl

namespace Arrangement

/-- Tree, open groups and snapshot fit together. -/
structure Coherent (a : Arrangement) : Prop where
  built : a.tree.IsBuilt
  contains_of_open : ∀ k ∈ a.expansion, a.tree.contains k = true
  snapshot_eq : ∀ v, a.snapshot = some v → v = .flatten a.tree a.expansion

/-- Nothing is open without grouping. -/
theorem Coherent.expansion_eq_empty {a : Arrangement} (h : a.Coherent)
    (hp : a.tree.properties = []) : a.expansion = .empty :=
  h.built.eq_empty (by simp [GroupTree.hasGroups, hp]) h.contains_of_open

/-- Whatever is open is a group, so a group is open if its path is. -/
theorem Coherent.isExpanded_eq {a : Arrangement} (h : a.Coherent) (k : GroupPath) :
    a.isExpanded k = a.expansion.contains k := by
  unfold isExpanded
  cases hk : a.expansion.contains k with
  | false => simp
  | true => simp [h.contains_of_open k (Expansion.contains_iff.1 hk)]

/-- A look finds what a snapshot taken now would show. -/
theorem Coherent.look_eq {a : Arrangement} (h : a.Coherent) :
    a.look = .flatten a.tree a.expansion := by
  unfold look
  cases hs : a.snapshot with
  | none => rfl
  | some v => exact h.snapshot_eq v hs

/-- With every group open, only groups are open. -/
theorem contains_of_mem_all {t : GroupTree} (ht : t.IsBuilt) :
    ∀ k ∈ Expansion.all t, t.contains k = true := by
  intro k hk
  obtain ⟨items, lookup, hb⟩ := ht
  rw [hb] at hk ⊢
  exact GroupTree.contains_of_mem_allGroups_build (Expansion.mem_ofList.1 hk)

/-- The first arrangement of a built tree is coherent. -/
theorem coherent_start {t : GroupTree} (ht : t.IsBuilt) (expandAll : Bool) :
    (start t expandAll).Coherent where
  built := ht
  contains_of_open k hk := by
    unfold start at hk
    split at hk
    · exact contains_of_mem_all ht k hk
    · exact absurd hk (Expansion.not_mem_empty k)
  snapshot_eq v hv := by simp [start] at hv

/-- A built tree that comes in leaves a coherent arrangement, whatever was there before. -/
theorem coherent_regroup (a : Arrangement) {t : GroupTree} (ht : t.IsBuilt)
    (restore expandAll : Bool) : (a.regroup t restore expandAll).Coherent where
  built := ht
  contains_of_open k hk := by
    change k ∈ a.carried t restore expandAll at hk
    unfold carried at hk
    split at hk
    · exact contains_of_mem_all ht k hk
    · split at hk
      · exact (Expansion.mem_restrict.1 hk).2.1
      · exact absurd hk (Expansion.not_mem_empty k)
  snapshot_eq v hv := by simp [regroup] at hv

/-- An alteration leaves the tree. -/
theorem Alters.tree_eq {a b : Arrangement} (h : a.Alters b) : b.tree = a.tree := by
  cases h <;> rfl

/-- Every other change keeps an arrangement coherent. -/
theorem Coherent.alters {a b : Arrangement} (h : a.Coherent) (hab : a.Alters b) :
    b.Coherent where
  built := hab.tree_eq ▸ h.built
  contains_of_open k hk := by
    rw [hab.tree_eq]
    cases hab with
    | expand j hj =>
      rcases Expansion.mem_expand.1 hk with rfl | hk
      · exact (Bool.and_eq_true_iff.1 hj).1
      · exact h.contains_of_open k hk
    | collapse j => exact h.contains_of_open k (Expansion.mem_collapse.1 hk).2
    | expandAll => exact contains_of_mem_all h.built k hk
    | collapseAll => exact absurd hk (Expansion.not_mem_empty k)
    | look => exact h.contains_of_open k hk
  snapshot_eq v hv := by
    cases hab with
    | look => exact (Option.some.inj hv).symm.trans h.look_eq
    | expand | collapse | expandAll | collapseAll => exact absurd hv (Option.some_ne_none v).symm

end Arrangement

end GroupedRows
