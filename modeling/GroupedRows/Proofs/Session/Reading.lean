import GroupedRows.Proofs.Arrangement
import GroupedRows.Proofs.Navigation
import GroupedRows.Proofs.Session.Entries
import GroupedRows.Session.Questions

/-!
# Reading a table

Every question to a table first applies a pending change, and then finds the table
synced: with a tree of the present items if a change was pending, and as it was
otherwise. This takes that nobody who hears of the layout interferes.
-/

namespace GroupedRows

open Call

/-- The table after a pending change has been applied. -/
def Table.synced (t : Table) (source : Source) : Table :=
  if t.stale then t.rebuilt source t.properties false else t

/-- What a question about rows finds in a table: over an inactive source there is nothing. -/
def Table.shown (t : Table) (source : Source) : Snapshot :=
  if source.isActive then (t.synced source).arrangement.look else .empty

/-- A synced table has no pending change. -/
theorem Table.stale_synced (t : Table) (source : Source) : (t.synced source).stale = false := by
  unfold synced
  split
  · rfl
  · rename_i h
    exact Bool.eq_false_iff.2 h

/-- Without a pending change there is nothing to apply. -/
theorem Table.synced_synced (t : Table) (source : Source) :
    (t.synced source).synced source = t.synced source := by
  rw [synced, stale_synced, if_neg Bool.false_ne_true]

/-- A table that is stale or has the tree of the present items has this tree once it is synced. -/
theorem Table.tree_synced {t : Table} {source : Source}
    (h : t.stale = true ∨ t.tree = source.tree t.properties) :
    (t.synced source).tree = source.tree t.properties := by
  unfold synced
  split
  · rfl
  · rename_i hs
    exact h.resolve_left hs

/-- A synced table fits together if the table did. -/
theorem Table.coherent_synced {t : Table} (h : t.arrangement.Coherent) (source : Source) :
    (t.synced source).arrangement.Coherent := by
  unfold synced
  split
  · exact Arrangement.coherent_regroup _ (GroupTree.isBuilt_build _ _ _) _ _
  · exact h

namespace Session

/-- Whoever hears of the layout of a table that has been rebuilt leaves source and table alone. -/
def LayoutIgnored (emit : Emit) (s : Session) (c : TableId) : Prop :=
  ∀ t, s.table? c = some t →
    let announced := emit (.layout c) (s.rebuild c t.properties false)
    announced.source = s.source ∧
      announced.table? c = some (t.rebuilt s.source t.properties false)

variable {emit : Emit} {s : Session} {c : TableId} {t : Table}

theorem exists_table_of_isOpen (h : s.isOpen c = true) : ∃ t, s.table? c = some t := by
  unfold isOpen at h
  cases he : s.tables[c]? with
  | none => simp [he] at h
  | some e => exact ⟨e.table, table?_eq_some_iff.2 ⟨e, he, rfl⟩⟩

theorem table?_modifyTable (ht : s.table? c = some t) (f : Table → Table) :
    (s.modifyTable c f).table? c = some (f t) := by
  obtain ⟨e, he, rfl⟩ := table?_eq_some_iff.1 ht
  exact table?_eq_some_iff.2 ⟨_, getElem?_modifyEntry he _, rfl⟩

@[simp] theorem source_rebuild (s : Session) (c : TableId) (properties : List String)
    (expandAll : Bool) : (s.rebuild c properties expandAll).source = s.source := by
  unfold rebuild
  split <;> rfl

/-- A table that is rebuilt has a tree of the present items. -/
theorem table?_rebuild (ht : s.table? c = some t) (properties : List String) (expandAll : Bool) :
    (s.rebuild c properties expandAll).table? c =
      some (t.rebuilt s.source properties expandAll) := by
  unfold rebuild
  rw [ht]
  exact table?_modifyTable (s := s.write _) ht _

/-- A pending change is applied by rebuilding the table and announcing its layout. -/
theorem run_sync (ht : s.table? c = some t) :
    ((sync c).run emit s).2 =
      if t.stale then emit (.layout c) (s.rebuild c t.properties false) else s := by
  simp only [sync, run_bind, run_read, ht, Option.any_some]
  split
  · simp only [refresh, run_bind, run_read, ht, run_change, run_send]
  · rfl

/-- Where there is no table there is nothing to apply. -/
theorem run_sync_of_none (ht : s.table? c = none) : ((sync c).run emit s).2 = s := by
  simp only [sync, run_bind, run_read, ht, Option.any_none, Bool.false_eq_true, if_false]
  rfl

/-- Applying a pending change leaves the table synced. -/
theorem LayoutIgnored.sync (h : LayoutIgnored emit s c) (ht : s.table? c = some t) :
    ((Session.sync c).run emit s).2.source = s.source ∧
      ((Session.sync c).run emit s).2.table? c = some (t.synced s.source) := by
  rw [run_sync ht]
  unfold Table.synced
  split
  · exact h t ht
  · exact ⟨rfl, ht⟩

/-- Questions about groups are answered in the tree of the synced table. -/
theorem LayoutIgnored.askTree (h : LayoutIgnored emit s c) (ht : s.table? c = some t)
    (answer : GroupTree → Answer) :
    ((Session.askTree c answer).run emit s).1 = answer (t.synced s.source).tree := by
  obtain ⟨_, hsynced⟩ := h.sync ht
  simp only [Session.askTree, run_bind, run_read, run_pure, tree, hsynced, Option.map_some,
    Option.getD_some]

/-- Items are found in the source by the identifiers of the synced table's tree. -/
theorem LayoutIgnored.askItems (h : LayoutIgnored emit s c) (ht : s.table? c = some t)
    (ids : GroupTree → List ItemId) :
    ((Session.askItems c ids).run emit s).1 =
      .items (s.source.itemsOf (ids (t.synced s.source).tree)) := by
  obtain ⟨hsource, hsynced⟩ := h.sync ht
  simp only [Session.askItems, run_bind, run_read, run_pure, tree, hsource, hsynced,
    Option.map_some, Option.getD_some]

/-- Questions about rows are answered by a snapshot. -/
theorem askTable_eq_askRows {q : TableQuery} (hq : q.AboutRows) (c : TableId) :
    askTable c q = askRows c fun v => v.reply q := by
  cases q with
  | rows | size | first | last | next | previous | isFirst | isLast | positionOf | rowAt => rfl
  | _ => exact hq.elim

/-- Over an active source, rows are looked at when a pending change has been applied. -/
theorem run_visible_of_active (hactive : s.source.isActive = true) :
    (visible c).run emit s =
      let synced := ((sync c).run emit s).2
      (((synced.table? c).map fun t => t.arrangement.look).getD .empty, synced.look c) := by
  simp only [visible, run_bind, run_read, hactive, if_true, run_change, run_pure]

/-- Over an inactive source a look at the rows does nothing. -/
theorem run_visible_of_inactive (hactive : s.source.isActive = false) :
    (visible c).run emit s = (.empty, s) := by
  simp only [visible, run_bind, run_read, hactive, Bool.false_eq_true, if_false, run_pure]

/-- Questions about rows are answered by what the table shows. -/
theorem LayoutIgnored.visible (h : LayoutIgnored emit s c) (ht : s.table? c = some t) :
    ((Session.visible c).run emit s).1 = t.shown s.source := by
  obtain ⟨_, hsynced⟩ := h.sync ht
  unfold Table.shown
  cases hactive : s.source.isActive with
  | false => rw [run_visible_of_inactive hactive, if_neg Bool.false_ne_true]
  | true =>
    rw [run_visible_of_active hactive, if_pos rfl]
    dsimp only
    rw [hsynced, Option.map_some, Option.getD_some]

end Session

end GroupedRows
