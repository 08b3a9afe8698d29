import GroupedRows.Proofs.Session.Refinement

/-!
# Tables answer as the reference does

Whatever a table does first applies a pending change, and so does the reference. After
that the tree and the open groups of both agree, and with them all answers.
-/

namespace GroupedRows

open Call Session

/-- A call on a session has the answer of the reference, and the table agrees after it. -/
def Agrees {α : Type} (w : PlainSession) (c : TableId) (r : α × Session) (a : α × PlainTable) :
    Prop :=
  r.1 = a.1 ∧ Refines r.2 (w.put c a.2)

namespace PlainTable

/-- A table that has applied its change has none pending. -/
theorem pending_sync (b : PlainTable) (source : PlainSource) : (b.sync source).pending = false := by
  unfold sync
  split
  · rfl
  · rename_i h
    exact Bool.eq_false_iff.2 h

/-- A table without a pending change has nothing to apply. -/
theorem sync_of_not_pending {b : PlainTable} (h : b.pending = false) (source : PlainSource) :
    b.sync source = b := by
  simp [sync, h]

end PlainTable

namespace Refines

variable {s : Session} {w : PlainSession} {c : TableId} {b : PlainTable} (depth : Nat)

/-! ## Trees -/

/-- Rebuilding a table by its own properties refreshes it in the reference. -/
theorem refresh (h : Refines s w) (hb : w.tables[c]? = some b) :
    Refines ((Session.refresh c).run (emit depth) s).2 (w.put c (b.refresh w.source)) := by
  obtain ⟨t, ht, hs⟩ := h.shows hb
  have hr := h.rebuild hb t.properties false
  rw [hs.properties] at hr
  simp only [Session.refresh, run_bind, run_read, ht, run_change, run_send, hs.properties]
  exact hr.emit_table depth rfl

/-- A pending change is applied by both. -/
theorem sync (h : Refines s w) (hb : w.tables[c]? = some b) :
    Refines ((Session.sync c).run (emit depth) s).2 (w.put c (b.sync w.source)) := by
  obtain ⟨t, ht, hs⟩ := h.shows hb
  simp only [Session.sync, run_bind, run_read, ht, Option.any_some, hs.pending]
  unfold PlainTable.sync
  split
  · exact h.refresh depth hb
  · rw [PlainSession.put_self hb]
    exact h

/-- After a pending change has been applied, both have the tree of the present items. -/
theorem synced (h : Refines s w) (hb : w.tables[c]? = some b) :
    ∃ t, ((Session.sync c).run (emit depth) s).2.table? c = some t ∧
      Shows w.source t (b.sync w.source) ∧ t.tree = (b.sync w.source).tree w.source := by
  obtain ⟨t, ht, hs⟩ := (h.sync depth hb).shows (PlainSession.tables_put hb (b.sync w.source))
  exact ⟨t, ht, hs, hs.tree (b.pending_sync w.source)⟩

/-- Grouping replaces the properties in both. -/
theorem groupBy (h : Refines s w) (hb : w.tables[c]? = some b) (properties : List String) :
    Refines ((Session.groupBy c properties).run (emit depth) s).2
      (w.put c (b.group w.source properties b.settings.expandOnGrouping)) := by
  obtain ⟨t, ht, hs⟩ := h.shows hb
  have hr := (h.write (repeatLog properties)).rebuild hb properties t.settings.expandOnGrouping
  rw [hs.settings] at hr
  simp only [Session.groupBy, run_bind, run_read, ht, run_change, run_send, hs.settings]
  exact (hr.emit_table depth rfl).emit_table depth rfl

/-! ## Open groups -/

/-- Dropping the snapshot plays no part when a table changes what it shows. -/
theorem rearrange (h : Refines s w) (hb : w.tables[c]? = some b) (f : Arrangement → Arrangement)
    (hf : ∀ t, s.table? c = some t → t.arrangement.Alters (f t.arrangement))
    (opened : Expansion)
    (hopened : ∀ t, s.table? c = some t → t.arrangement.expansion = b.opened →
      (f t.arrangement).expansion = opened) :
    Refines (s.rearrange c f) (w.put c { b with opened }) := by
  obtain ⟨t, ht, -⟩ := h.shows hb
  unfold Session.rearrange
  rw [ht]
  exact (h.write t.arrangement.dropLog).arrange hb hf hopened

/-- A change of one group that is made only if a test allows it, which is the answer. -/
theorem switch (h : Refines s w) (hb : w.tables[c]? = some b) (test : Table → Bool)
    (f : Arrangement → Arrangement) {n : Notice} (hn : n.channel.table? = some c) (allowed : Bool)
    (htest : ∀ t, Shows w.source t (b.sync w.source) →
      t.tree = (b.sync w.source).tree w.source → test t = allowed)
    (hf : ∀ t, test t = true → t.arrangement.Alters (f t.arrangement)) (opened : Expansion)
    (hopened : ∀ a : Arrangement, a.expansion = (b.sync w.source).opened →
      (f a).expansion = opened) :
    let switching : Call Bool := do
      Session.sync c
      if ((← read).table? c).any test then
        change (Session.rearrange c f)
        send n
        send (.layout c)
        return true
      else return false
    Agrees w c (switching.run (emit depth) s)
      (allowed, if allowed then { b.sync w.source with opened } else b.sync w.source) := by
  have hsync := h.sync depth hb
  have hnow := PlainSession.tables_put hb (b.sync w.source)
  obtain ⟨t, ht, hs, htree⟩ := h.synced depth hb
  have hallowed := htest t hs htree
  simp only [run_bind, run_read, ht, Option.any_some, hallowed]
  generalize ((Session.sync c).run (emit depth) s).2 = s' at *
  split
  · rename_i ha
    have hr := hsync.rearrange hnow f
      (fun t' ht' => hf t' (by rw [Option.some.inj (ht'.symm.trans ht), hallowed, ha]))
      opened (fun t' _ => hopened t'.arrangement)
    rw [PlainSession.put_put] at hr
    simp only [run_bind, run_change, run_send, run_pure]
    exact ⟨ha.symm, (hr.emit_table depth hn).emit_table depth rfl⟩
  · rename_i ha
    exact ⟨(Bool.eq_false_iff.2 ha).symm, hsync⟩

/-- Opening a group answers whether there is a closed one, and opens it. -/
theorem expand (h : Refines s w) (hb : w.tables[c]? = some b) (k : GroupPath) :
    let now := b.sync w.source
    let closed := (now.tree w.source).contains k && !now.opened.contains k
    Agrees w c ((Session.expand c k).run (emit depth) s)
      (closed, if closed then { now with opened := now.opened.expand k } else now) := by
  intro now closed
  refine h.switch depth hb (·.arrangement.canExpand k) (·.expand k) rfl closed
    (fun t hs htree => ?_) (fun t ht => .expand k ht) _ fun a ha => by rw [← ha]; rfl
  unfold Arrangement.canExpand
  rw [hs.opened, show t.arrangement.tree = _ from htree]

/-- Closing a group answers whether it is open, and closes it. -/
theorem collapse (h : Refines s w) (hb : w.tables[c]? = some b) (k : GroupPath) :
    let now := b.sync w.source
    Agrees w c ((Session.collapse c k).run (emit depth) s)
      (now.opened.contains k,
        if now.opened.contains k then { now with opened := now.opened.collapse k } else now) := by
  intro now
  refine h.switch depth hb (·.arrangement.isExpanded k) (·.collapse k) rfl _
    (fun t hs _ => ?_) (fun t _ => .collapse k) _ fun a ha => by rw [← ha]; rfl
  rw [hs.coherent.isExpanded_eq, hs.opened]

/-- Changing all groups at once opens those that the change opens; without groups that is none. -/
theorem rearrangeAll (h : Refines s w) (hb : w.tables[c]? = some b)
    {f : Arrangement → Arrangement} (hf : ∀ a : Arrangement, a.Alters (f a))
    (records : Table → List LogRecord) (opened : GroupTree → Expansion)
    (hopened : ∀ a, (f a).expansion = opened a.tree)
    (hnone : ∀ t : GroupTree, t.IsBuilt → t.hasGroups = false → opened t = .empty) :
    let now := b.sync w.source
    Refines ((Session.rearrangeAll c f records).run (emit depth) s).2
      (w.put c { now with opened := opened (now.tree w.source) }) := by
  intro now
  have hsync := h.sync depth hb
  have hnow := PlainSession.tables_put hb now
  obtain ⟨t, ht, hs, htree⟩ := h.synced depth hb
  simp only [Session.rearrangeAll, run_bind, run_read, ht]
  generalize ((Session.sync c).run (emit depth) s).2 = s' at *
  split
  · have hr := (hsync.write (records t)).rearrange hnow f (fun t' _ => hf t'.arrangement)
      (opened (now.tree w.source)) fun t' ht' _ => by
        rw [hopened, Option.some.inj (ht'.symm.trans ht)]
        exact congrArg opened htree
    rw [PlainSession.put_put] at hr
    simp only [run_bind, run_change, run_send]
    exact hr.emit_table depth rfl
  · rename_i hgroups
    have hg : t.tree.hasGroups = false := Bool.eq_false_iff.2 hgroups
    have hproperties : t.tree.properties = [] := by simpa [GroupTree.hasGroups] using hg
    have hempty : opened (now.tree w.source) = now.opened := by
      rw [← hs.opened, hs.coherent.expansion_eq_empty hproperties, ← htree]
      exact hnone t.tree hs.coherent.built hg
    rw [hempty]
    exact hsync

/-- Opening an open group changes nothing. -/
theorem expand_of_contains {e : Expansion} {k : GroupPath} (h : e.contains k = true) :
    e.expand k = e :=
  dif_pos (Expansion.contains_iff.1 h)

/-- Opening groups one after the other answers whether one of them is closed, and each is open
afterwards, closed before or not. -/
theorem expandEach (h : Refines s w) (hb : w.tables[c]? = some b) (hp : b.pending = false)
    (path : List GroupPath) (hpath : ∀ k ∈ path, (b.tree w.source).contains k = true) :
    Agrees w c ((Session.expandEach c path).run (emit depth) s)
      (path.any fun k => !b.opened.contains k,
        { b with opened := path.foldl .expand b.opened }) := by
  induction path generalizing s w b with
  | nil =>
    refine ⟨rfl, ?_⟩
    change Refines s (w.put c b)
    rwa [PlainSession.put_self hb]
  | cons k rest ih =>
    have hk := h.expand depth hb k
    dsimp only at hk
    rw [PlainTable.sync_of_not_pending hp, hpath k List.mem_cons_self, Bool.true_and] at hk
    have hopened : (if (!b.opened.contains k) = true then
        { b with opened := b.opened.expand k } else b) =
          { b with opened := b.opened.expand k } := by
      cases hc : b.opened.contains k with
      | false => rfl
      | true => rw [expand_of_contains hc]; rfl
    rw [hopened] at hk
    have hrest := ih hk.2 (PlainSession.tables_put hb _) hp fun j hj =>
      hpath j (List.mem_cons_of_mem _ hj)
    dsimp only at hrest
    simp only [Session.expandEach, run_bind, run_pure]
    refine ⟨?_, ?_⟩
    · rw [hk.1, hrest.1, List.any_cons]
      cases hc : b.opened.contains k with
      | false => rfl
      | true => rw [expand_of_contains hc]
    · have hend := hrest.2
      rwa [PlainSession.put_put] at hend

/-- Opening the groups around an item answers whether one of them is closed. -/
theorem expandToItem (h : Refines s w) (hb : w.tables[c]? = some b) (id : ItemId) :
    let now := b.sync w.source
    let path := (now.tree w.source).pathOf id
    Agrees w c ((Session.expandToItem c id).run (emit depth) s)
      (path.any fun k => !now.opened.contains k,
        { now with opened := path.foldl .expand now.opened }) := by
  intro now path
  obtain ⟨t, ht, -, htree⟩ := h.synced depth hb
  have heach := (h.sync depth hb).expandEach depth (PlainSession.tables_put hb now)
    (b.pending_sync w.source) path fun k hk => GroupTree.contains_of_mem_pathOf_build hk
  have hpath : (((Session.sync c).run (emit depth) s).2.tree c).pathOf id = path := by
    unfold Session.tree
    rw [ht, Option.map_some, Option.getD_some, htree]
  simp only [Session.expandToItem, run_bind, run_read, hpath]
  refine ⟨heach.1, ?_⟩
  have hend := heach.2
  rwa [PlainSession.put_put] at hend

/-- What a switch answers and what it leaves can be told apart. -/
theorem flag_ite (allowed : Bool) (b b' : PlainTable) :
    (if allowed then (Answer.flag true, b) else (.flag false, b')) =
      (.flag allowed, if allowed then b else b') := by
  cases allowed <;> rfl

/-- Every step on a table agrees with the reference. -/
theorem runTable (h : Refines s w) (hb : w.tables[c]? = some b) (step : TableStep) :
    Agrees w c ((Session.runTable c step).run (emit depth) s) (b.step w.source step) := by
  cases step with
  | groupBy properties =>
    simp only [Session.runTable, run_bind, run_pure]
    exact ⟨rfl, h.groupBy depth hb properties⟩
  | refresh =>
    simp only [Session.runTable, run_bind, run_pure]
    exact ⟨rfl, h.refresh depth hb⟩
  | expandAll =>
    simp only [Session.runTable, run_bind, run_pure]
    exact ⟨rfl, h.rearrangeAll depth hb (fun _ => .expandAll) _ .all (fun _ => rfl)
      fun _ => Expansion.all_eq_empty⟩
  | collapseAll =>
    simp only [Session.runTable, run_bind, run_pure]
    exact ⟨rfl, h.rearrangeAll depth hb (fun _ => .collapseAll) _ (fun _ => .empty) (fun _ => rfl)
      fun _ _ _ => rfl⟩
  | expand k =>
    have hk := h.expand depth hb k
    simp only [Session.runTable, run_bind, run_pure, PlainTable.step, flag_ite]
    exact ⟨congrArg Answer.flag hk.1, hk.2⟩
  | collapse k =>
    have hk := h.collapse depth hb k
    simp only [Session.runTable, run_bind, run_pure, PlainTable.step, flag_ite]
    exact ⟨congrArg Answer.flag hk.1, hk.2⟩
  | expandToItem id =>
    have hid := h.expandToItem depth hb id
    simp only [Session.runTable, run_bind, run_pure]
    exact ⟨congrArg Answer.flag hid.1, hid.2⟩

end Refines

end GroupedRows
