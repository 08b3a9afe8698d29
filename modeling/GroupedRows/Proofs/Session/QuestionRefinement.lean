import GroupedRows.Proofs.Session.TableRefinement
import GroupedRows.Session.Questions

/-!
# Questions are answered as the reference does

A question about groups applies a pending change and looks into the tree. A question
about rows finds the snapshot that is kept or takes one, and both show what the
reference makes anew.
-/

namespace GroupedRows.Refines

open Call Session

variable {s : Session} {w : PlainSession} {c : TableId} {b : PlainTable} (depth : Nat)

/-! ## Groups -/

/-- A question about groups is answered in the tree of the present items. -/
theorem askTree (h : Refines s w) (hb : w.tables[c]? = some b) (answer : GroupTree → Answer) :
    Agrees w c ((Session.askTree c answer).run (emit depth) s) (b.askTree w.source answer) := by
  obtain ⟨t, ht, -, htree⟩ := h.synced depth hb
  simp only [Session.askTree, run_bind, run_read, run_pure]
  refine ⟨?_, h.sync depth hb⟩
  unfold Session.tree
  rw [ht, Option.map_some, Option.getD_some, htree]
  rfl

/-- The items that identifiers of the tree name are present items. -/
theorem askItems (h : Refines s w) (hb : w.tables[c]? = some b)
    (ids : GroupTree → List ItemId) :
    Agrees w c ((Session.askItems c ids).run (emit depth) s)
      (b.askTree w.source fun tree => .items (w.source.itemsOf (ids tree))) := by
  obtain ⟨t, ht, -, htree⟩ := h.synced depth hb
  have hsync := h.sync depth hb
  simp only [Session.askItems, run_bind, run_read, run_pure]
  refine ⟨?_, hsync⟩
  unfold Session.tree
  rw [ht, Option.map_some, Option.getD_some, htree, hsync.itemsOf_eq]
  rfl

/-! ## Rows -/

/-- What is visible is what the reference shows, whether a snapshot is kept or not. -/
theorem visible (h : Refines s w) (hb : w.tables[c]? = some b) :
    Agrees w c ((Session.visible c).run (emit depth) s) (b.look w.source) := by
  have hactive : s.source.isActive = decide (w.source.binding = .active) := by
    unfold Source.isActive
    rw [h.binding]
  simp only [Session.visible, run_bind, run_read, hactive, decide_eq_true_eq]
  unfold PlainTable.look
  split
  · obtain ⟨t, ht, hs, htree⟩ := h.synced depth hb
    have hsync := h.sync depth hb
    have hnow := PlainSession.tables_put hb (b.sync w.source)
    simp only [run_bind, run_read, run_change, run_pure]
    generalize ((Session.sync c).run (emit depth) s).2 = s' at *
    refine ⟨?_, ?_⟩
    · rw [ht, Option.map_some, Option.getD_some, hs.coherent.look_eq, hs.opened]
      exact congrArg (Snapshot.flatten · _) htree
    · unfold Session.look
      rw [ht]
      dsimp only
      generalize Arrangement.lookLog _ ++ _ = records
      have hl := (hsync.write records).arrange hnow (f := Arrangement.looked) (fun _ _ => .look)
        fun _ _ ho => ho
      rwa [PlainSession.put_put] at hl
  · refine ⟨rfl, ?_⟩
    change Refines s (w.put c b)
    rwa [PlainSession.put_self hb]

/-- A question about rows is answered by what is visible. -/
theorem askRows (h : Refines s w) (hb : w.tables[c]? = some b) (answer : Snapshot → Answer) :
    Agrees w c ((Session.askRows c answer).run (emit depth) s) (b.askRows w.source answer) := by
  have hv := h.visible depth hb
  simp only [Session.askRows, run_bind, run_pure]
  exact ⟨congrArg answer hv.1, hv.2⟩

/-- Rows that are held elsewhere play no part. -/
theorem hold (h : Refines s w) (hb : w.tables[c]? = some b) (name : String) :
    Agrees w c ((do return .count (← Session.hold c name) : Call Answer).run (emit depth) s)
      (b.ask w.source .size) := by
  obtain ⟨hanswer, hv⟩ := h.visible depth hb
  simp only [Session.hold, run_bind, run_change, run_pure]
  exact ⟨congrArg (Answer.count ·.size) hanswer, hv.congr hv.undisturbed.quiet rfl rfl⟩

/-! ## Walks -/

/-- A second look shows the same rows and changes nothing. -/
theorem look_look (b : PlainTable) (source : PlainSource) :
    (b.look source).2.look source = b.look source := by
  unfold PlainTable.look
  split
  · dsimp only
    rw [PlainTable.sync_of_not_pending (b.pending_sync source)]
  · rfl

variable {v : Snapshot}

/-- Once a table has been looked at, further looks change nothing. -/
theorem visible_again (h : Refines s w) (hb : w.tables[c]? = some b)
    (hlook : b.look w.source = (v, b)) :
    ((Session.visible c).run (emit depth) s).1 = v ∧
      Refines ((Session.visible c).run (emit depth) s).2 w := by
  have hv := h.visible depth hb
  unfold Agrees at hv
  rwa [hlook, PlainSession.put_self hb] at hv

/-- A walk forward finds the rows that the reference lists. -/
theorem walkForward (h : Refines s w) (hb : w.tables[c]? = some b)
    (hlook : b.look w.source = (v, b)) (limit : Nat) (r : Option Row) :
    ((Session.walkForward c limit r).run (emit depth) s).1 = PlainTable.marks v limit r ∧
      Refines ((Session.walkForward c limit r).run (emit depth) s).2 w := by
  induction limit generalizing s r with
  | zero => exact ⟨rfl, h⟩
  | succ limit ih =>
    cases r with
    | none => exact ⟨rfl, h⟩
    | some r =>
      simp only [Session.walkForward, run_bind, run_pure]
      obtain ⟨h1, hr1⟩ := h.visible_again depth hb hlook
      obtain ⟨h2, hr2⟩ := hr1.visible_again depth hb hlook
      obtain ⟨h3, hr3⟩ := hr2.visible_again depth hb hlook
      obtain ⟨h4, hr4⟩ := hr3.visible_again depth hb hlook
      obtain ⟨hrest, hend⟩ := ih hr4 (v.next? r)
      rw [h1, h2, h3, h4, hrest]
      exact ⟨rfl, hend⟩

/-- A walk backward finds the rows that the reference lists. -/
theorem walkBackward (h : Refines s w) (hb : w.tables[c]? = some b)
    (hlook : b.look w.source = (v, b)) (limit : Nat) (r : Option Row) :
    ((Session.walkBackward c limit r).run (emit depth) s).1 = PlainTable.backward v limit r ∧
      Refines ((Session.walkBackward c limit r).run (emit depth) s).2 w := by
  induction limit generalizing s r with
  | zero => exact ⟨rfl, h⟩
  | succ limit ih =>
    cases r with
    | none => exact ⟨rfl, h⟩
    | some r =>
      simp only [Session.walkBackward, run_bind, run_pure]
      obtain ⟨h1, hr1⟩ := h.visible_again depth hb hlook
      obtain ⟨hrest, hend⟩ := ih hr1 (v.previous? r)
      rw [h1, hrest]
      exact ⟨rfl, hend⟩

/-- A walk by single steps sees the rows of one look. -/
theorem walk (h : Refines s w) (hb : w.tables[c]? = some b) :
    Agrees w c ((Session.walk c).run (emit depth) s) (b.ask w.source .walk) := by
  obtain ⟨h1, hr1⟩ := h.visible depth hb
  have hb' := PlainSession.tables_put hb (b.look w.source).2
  have hlook := look_look b w.source
  change (b.look w.source).2.look (w.put c (b.look w.source).2).source =
    ((b.look w.source).1, (b.look w.source).2) at hlook
  obtain ⟨h2, hr2⟩ := hr1.visible_again depth hb' hlook
  obtain ⟨h3, hr3⟩ := hr2.walkForward depth hb' hlook ((b.look w.source).1.size + 1)
    (b.look w.source).1.first?
  obtain ⟨h4, hr4⟩ := hr3.visible_again depth hb' hlook
  obtain ⟨h5, hr5⟩ := hr4.walkBackward depth hb' hlook ((b.look w.source).1.size + 1)
    (b.look w.source).1.last?
  simp only [Session.walk, run_bind, run_pure]
  rw [h1, h2, h3, h4, h5]
  exact ⟨rfl, hr5⟩

/-! ## All questions -/

/-- Every question to a table is answered as in the reference. -/
theorem askTable (h : Refines s w) (hb : w.tables[c]? = some b) (query : TableQuery) :
    Agrees w c ((Session.askTable c query).run (emit depth) s) (b.ask w.source query) := by
  have hunchanged : Refines s (w.put c b) := by rwa [PlainSession.put_self hb]
  cases query with
  | isGroup r => cases r with
    | group k =>
      rw [Session.askTable, PlainTable.ask]
      exact h.askTree depth hb _
    | item id => exact ⟨rfl, hunchanged⟩
  | groupOf r => cases r with
    | group k =>
      rw [Session.askTable, PlainTable.ask]
      exact h.askTree depth hb _
    | item id => exact ⟨rfl, hunchanged⟩
  | ownItems | items =>
    rw [Session.askTable, PlainTable.ask]
    exact h.askItems depth hb _
  | isExpanded k =>
    obtain ⟨t, ht, hs, -⟩ := h.synced depth hb
    simp only [Session.askTable, run_bind, run_read, run_pure, ht, Option.any_some]
    refine ⟨?_, h.sync depth hb⟩
    rw [hs.coherent.isExpanded_eq, hs.opened]
    rfl
  | outline options =>
    obtain ⟨t, ht, hs, htree⟩ := h.synced depth hb
    simp only [Session.askTable, Session.outline, run_bind, run_read, run_pure, ht]
    refine ⟨?_, h.sync depth hb⟩
    rw [hs.opened, htree]
    rfl
  | settings =>
    obtain ⟨t, ht, hs⟩ := h.shows hb
    simp only [Session.askTable, run_bind, run_read, run_pure, ht, Option.map_some,
      Option.getD_some]
    exact ⟨congrArg Answer.settings hs.settings, hunchanged⟩
  | sourceSize =>
    simp only [Session.askTable, run_bind, run_read, run_pure]
    refine ⟨?_, hunchanged⟩
    unfold ItemStore.size
    rw [h.items]
    rfl
  | walk => exact h.walk depth hb
  | rows | size | first | last | next | previous | isFirst | isLast | positionOf | rowAt =>
    rw [Session.askTable, PlainTable.ask]
    exact h.askRows depth hb _
  | _ =>
    rw [Session.askTable, PlainTable.ask]
    exact h.askTree depth hb _

end GroupedRows.Refines
