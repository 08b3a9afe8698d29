import GroupedRows.Proofs.Arrangement
import GroupedRows.Proofs.ItemStore
import GroupedRows.Proofs.Reference
import GroupedRows.Proofs.Session.Undisturbed

/-!
# When a session refines the reference

A session refines a session of the reference if it has the same items and binding and
each table shows what the reference keeps of it. A table that is not stale has the tree
of the present items, and a table that is stale has a pending change in the reference.
-/

namespace GroupedRows

open Session

/-! ## Trees without groups -/

/-- In a tree without groups there is nothing to open. -/
theorem Expansion.all_eq_empty {t : GroupTree} (ht : t.IsBuilt) (hgroups : t.hasGroups = false) :
    Expansion.all t = .empty :=
  ht.eq_empty hgroups (Arrangement.contains_of_mem_all ht)

/-- What a new tree leaves open, without a look at whether there are groups at all. -/
theorem Arrangement.carried_eq (a : Arrangement) {t : GroupTree} (ht : t.IsBuilt)
    (restore expandAll : Bool) :
    a.carried t restore expandAll =
      if expandAll then .all t else if restore then a.expansion.keep t.contains else .empty := by
  unfold carried Expansion.restrict
  cases hgroups : t.hasGroups with
  | true => simp [Expansion.keep]
  | false =>
    have hkeep : a.expansion.keep t.contains = .empty :=
      ht.eq_empty hgroups fun _ hk => (List.mem_filter.1 hk).2
    simp [hkeep, Expansion.all_eq_empty ht hgroups]

/-! ## The relation -/

/-- The table shows what the reference keeps of it. -/
structure Shows (source : PlainSource) (t : Table) (b : PlainTable) : Prop where
  settings : t.settings = b.settings
  properties : t.properties = b.properties
  opened : t.arrangement.expansion = b.opened
  pending : t.stale = b.pending
  coherent : t.arrangement.Coherent
  tree : b.pending = false → t.tree = b.tree source

/-- The session agrees with one of the reference. -/
structure Refines (s : Session) (w : PlainSession) : Prop where
  undisturbed : s.Undisturbed
  indexed : s.source.store.Indexed
  items : s.source.store.items = w.source.items
  binding : s.source.binding.value = w.source.binding
  length : s.tables.length = w.tables.length
  tables : s.EachTable fun c e => ∀ b, w.tables[c]? = some b → Shows w.source e.table b

namespace Refines

variable {s s' : Session} {w : PlainSession} {c : TableId} {b b' : PlainTable}

/-- The store finds the item that the reference finds. -/
theorem get?_eq (h : Refines s w) (id : ItemId) : s.source.store.get? id = w.source.find? id := by
  rw [h.indexed.get?_eq, h.items]
  rfl

/-- Items have the values that the reference reads. -/
theorem value?_eq (h : Refines s w) : s.source.store.value? = w.source.value? := by
  funext id property
  rw [ItemStore.value?, h.get?_eq]
  rfl

/-- Both build the same trees. -/
theorem tree_eq (h : Refines s w) (properties : List String) :
    s.source.tree properties = w.source.tree properties := by
  unfold Source.tree ItemStore.tree PlainSource.tree ItemStore.ids
  rw [h.value?_eq, h.items]

/-- Identifiers name the items that the reference finds. -/
theorem itemsOf_eq (h : Refines s w) (ids : List ItemId) :
    s.source.itemsOf ids = w.source.itemsOf ids := by
  unfold Source.itemsOf PlainSource.itemsOf
  rw [show s.source.store.get? = w.source.find? from funext h.get?_eq]

/-- What is noted and logged plays no part. -/
theorem congr (h : Refines s w) (hquiet : s'.Quiet) (hsource : s'.source = s.source)
    (htables : s'.tables = s.tables) : Refines s' w where
  undisturbed :=
    h.undisturbed.congr hquiet (by rw [hsource]) (by rw [hsource]) htables
  indexed := hsource ▸ h.indexed
  items := hsource ▸ h.items
  binding := hsource ▸ h.binding
  length := htables ▸ h.length
  tables := by
    unfold EachTable
    rw [htables]
    exact h.tables

theorem write (h : Refines s w) (records : List LogRecord) : Refines (s.write records) w :=
  h.congr h.undisturbed.quiet rfl rfl

/-- Each table of the reference is there and shows what the reference keeps of it. -/
theorem shows (h : Refines s w) (hb : w.tables[c]? = some b) :
    ∃ t, s.table? c = some t ∧ Shows w.source t b := by
  have hlt : c < s.tables.length := h.length ▸ (List.getElem?_eq_some_iff.1 hb).1
  have he : s.tables[c]? = some s.tables[c] := List.getElem?_eq_getElem hlt
  exact ⟨s.tables[c].table, table?_eq_some_iff.2 ⟨_, he, rfl⟩, h.tables c _ he b hb⟩

/-! ## One table -/

/-- A table and what the reference keeps of it change together. -/
theorem modifyTable (h : Refines s w) (hb : w.tables[c]? = some b) {f : Table → Table}
    (hf : ∀ e : TableEntry, e.WiredAlike { e with table := f e.table })
    (hshows : ∀ t, s.table? c = some t → Shows w.source t b → Shows w.source (f t) b') :
    Refines (s.modifyTable c f) (w.put c b') where
  undisturbed := h.undisturbed.modifyEntry hf
  indexed := h.indexed
  items := h.items
  binding := h.binding
  length := by
    change (s.tables.modify c _).length = (w.tables.set c b').length
    rw [List.length_modify, List.length_set, h.length]
  tables := by
    refine eachTable_modifyEntry (fun e he b'' hb'' => ?_) fun d e hd he b'' hb'' => ?_
    · rw [PlainSession.tables_put hb] at hb''
      obtain rfl := Option.some.inj hb''
      exact hshows e.table (table?_eq_some_iff.2 ⟨e, he, rfl⟩) (h.tables c e he b hb)
    · change (w.tables.set c b')[d]? = some b'' at hb''
      rw [List.getElem?_set_ne (Ne.symm hd)] at hb''
      exact h.tables d e he b'' hb''

/-- Calls may begin and return. -/
theorem modifyCalls (h : Refines s w) {f : TableEntry → TableEntry}
    (hf : ∀ e, (f e).table = e.table ∧ (f e).isOpen = e.isOpen) :
    Refines (s.modifyEntry c f) w where
  undisturbed := h.undisturbed.modifyEntry fun e =>
    ⟨(hf e).2, by rw [(hf e).1], by rw [(hf e).1], by rw [(hf e).1]⟩
  indexed := h.indexed
  items := h.items
  binding := h.binding
  length := (List.length_modify ..).trans h.length
  tables := h.tables.modifyEntry fun e he b hb => by
    rw [(hf e).1]
    exact h.tables c e he b hb

/-- The reference does not note that a call begins. -/
theorem enter (h : Refines s w) (c : TableId) : Refines (s.enter c) w :=
  h.modifyCalls fun _ => ⟨rfl, rfl⟩

/-- The reference does not note that a call ends. -/
theorem leave (h : Refines s w) (c : TableId) : Refines (s.leave c) w := by
  have hleft : Refines (s.modifyEntry c fun e => { e with calls := e.calls - 1 }) w :=
    h.modifyCalls fun _ => ⟨rfl, rfl⟩
  unfold Session.leave
  rwa [hleft.undisturbed.release_eq]

/-- Rebuilding a table is grouping it in the reference. -/
theorem rebuild (h : Refines s w) (hb : w.tables[c]? = some b) (properties : List String)
    (expandAll : Bool) :
    Refines (s.rebuild c properties expandAll)
      (w.put c (b.group w.source properties expandAll)) := by
  obtain ⟨t, ht, -⟩ := h.shows hb
  unfold Session.rebuild
  rw [ht]
  refine (h.write _).modifyTable hb (fun _ => ⟨rfl, rfl, rfl, rfl⟩) fun t _ hs => ?_
  have hbuilt : (w.source.tree properties).IsBuilt := GroupTree.isBuilt_build _ _ _
  have hproperties : (w.source.tree properties).properties = properties :=
    GroupTree.properties_build _ _ _
  unfold Table.rebuilt
  rw [h.tree_eq]
  exact {
    settings := hs.settings
    properties := hproperties
    opened := by
      change t.arrangement.carried _ _ _ = _
      rw [Arrangement.carried_eq _ hbuilt, hs.settings, hs.opened]
      rfl
    pending := rfl
    coherent := Arrangement.coherent_regroup _ hbuilt _ _
    tree := fun _ => rfl }

/-- A change of what a table shows is a change of what the reference keeps open. -/
theorem arrange (h : Refines s w) (hb : w.tables[c]? = some b) {f : Arrangement → Arrangement}
    (hf : ∀ t, s.table? c = some t → t.arrangement.Alters (f t.arrangement))
    {opened : Expansion}
    (hopened : ∀ t, s.table? c = some t → t.arrangement.expansion = b.opened →
      (f t.arrangement).expansion = opened) :
    Refines (s.arrange c f) (w.put c { b with opened }) := by
  refine h.modifyTable hb (fun _ => ⟨rfl, rfl, rfl, rfl⟩) fun t ht hs => ?_
  have htree := (hf t ht).tree_eq
  exact {
    settings := hs.settings
    properties := (congrArg GroupTree.properties htree).trans hs.properties
    opened := hopened t ht hs.opened
    pending := hs.pending
    coherent := hs.coherent.alters (hf t ht)
    tree := fun hp => htree.trans (hs.tree hp) }

/-! ## Notices -/

/-- A notice of a table plays no part. -/
theorem emit_table (h : Refines s w) (depth : Nat) {n : Notice} {d : TableId}
    (hd : n.channel.table? = some d) : Refines (emit depth n s) w := by
  obtain ⟨hsource, htables, hundisturbed⟩ := h.undisturbed.emit_table depth hd
  exact h.congr hundisturbed.quiet hsource htables

/-- After a notice of the source, all tables have a change to apply. -/
theorem emit_source (h : Refines s w) (depth : Nat) {n : Notice} (hn : n.channel.table? = none)
    {store : ItemStore} (hstore : store.Indexed) (binding : Cell Binding) :
    Refines (emit depth n (s.modifySource ({ · with store, binding })))
      (PlainSession.announce ⟨⟨store.items, binding.value⟩, w.tables⟩) := by
  have hundisturbed : (s.modifySource ({ · with store, binding })).Undisturbed :=
    h.undisturbed.congr h.undisturbed.quiet rfl rfl rfl
  obtain ⟨hsource, htables, hheard⟩ := hundisturbed.emit_source depth hn
  refine ⟨hheard, hsource ▸ hstore, by rw [hsource]; rfl, by rw [hsource]; rfl, ?_, ?_⟩
  · rw [htables, List.length_map]
    exact h.length.trans (List.length_map _).symm
  · intro c e he b hb
    rw [htables, List.getElem?_map] at he
    obtain ⟨e', he', rfl⟩ := Option.map_eq_some_iff.1 he
    change (w.tables.map _)[c]? = some b at hb
    rw [List.getElem?_map] at hb
    obtain ⟨b', hb', rfl⟩ := Option.map_eq_some_iff.1 hb
    have hs := h.tables c e' he' b' hb'
    exact {
      settings := hs.settings
      properties := hs.properties
      opened := hs.opened
      pending := rfl
      coherent := hs.coherent
      tree := fun hp => absurd hp (by simp) }

/-! ## Connections -/

/-- Connections play no part as long as the session stays undisturbed. -/
theorem connect (h : Refines s w) (channel : Channel) (r : Receiver)
    (hr : channel.table? ≠ none → ∀ d, r ≠ .table d) : Refines (s.connect channel r).2 w := by
  have hsource : (s.connect channel r).2.source.store = s.source.store ∧
      (s.connect channel r).2.source.binding = s.source.binding := by
    cases channel <;> exact ⟨rfl, rfl⟩
  have hsignals : TableEntry.IgnoresSignals fun c e =>
      ∀ b, w.tables[c]? = some b → Shows w.source e.table b := by
    intro c e t ht hs b hb
    have he := hs b hb
    exact {
      settings := ht.settings.trans he.settings
      properties := by
        unfold Table.properties
        rw [ht.arrangement]
        exact he.properties
      opened := ht.arrangement ▸ he.opened
      pending := ht.stale.trans he.pending
      coherent := ht.arrangement ▸ he.coherent
      tree := fun hp => by
        unfold Table.tree
        rw [ht.arrangement]
        exact he.tree hp }
  exact {
    undisturbed := h.undisturbed.connect channel r hr
    indexed := hsource.1 ▸ h.indexed
    items := hsource.1 ▸ h.items
    binding := hsource.2 ▸ h.binding
    length := (length_setSignal s channel _).trans h.length
    tables := h.tables.setSignal hsignals channel _ }

/-- A listener that does nothing may be connected. -/
theorem listen (h : Refines s w) (name : String) (channel : Channel) (times : Nat) :
    Refines (s.listen name channel [] times) w := by
  have hc := h.connect channel (.listener s.listeners.length) fun _ d => by simp
  refine hc.congr (fun l hl => ?_) rfl rfl
  rcases List.mem_append.1 hl with hl | hl
  · exact hc.undisturbed.quiet l hl
  · rw [List.mem_singleton.1 hl]

/-- The first arrangement of a table shows what the reference starts with. -/
theorem shows_start (source : PlainSource) {settings : Settings} {t : Table}
    (hsettings : t.settings = settings) (hstale : t.stale = false)
    (harrangement : t.arrangement =
      .start (source.tree settings.properties) settings.expandOnGrouping) :
    Shows source t (.start source settings) := by
  have hbuilt : (source.tree settings.properties).IsBuilt := GroupTree.isBuilt_build _ _ _
  have hproperties : (source.tree settings.properties).properties = settings.properties :=
    GroupTree.properties_build _ _ _
  exact {
    settings := hsettings
    properties := by
      unfold Table.properties
      rw [harrangement]
      exact hproperties
    opened := by
      rw [harrangement]
      cases hgroups : (source.tree settings.properties).hasGroups with
      | true => simp [Arrangement.start, PlainTable.start, hgroups]
      | false => simp [Arrangement.start, PlainTable.start, hgroups,
          Expansion.all_eq_empty hbuilt hgroups]
    pending := hstale
    coherent := harrangement ▸ Arrangement.coherent_start hbuilt _
    tree := fun _ => by
      unfold Table.tree
      rw [harrangement]
      rfl }

/-- A further table shows what the reference starts with. -/
theorem openTable (h : Refines s w) (settings : Settings) :
    Refines (s.openTable settings) { w with tables := w.tables ++ [.start w.source settings] } := by
  have hc := (h.connect .items (.table s.tables.length) (by simp [Channel.table?])).connect
    .binding (.table s.tables.length) (by simp [Channel.table?])
  have hold : s.EachTable fun c e =>
      ∀ b, (w.tables ++ [.start w.source settings])[c]? = some b → Shows w.source e.table b := by
    intro c e he b hb
    have hlt : c < w.tables.length := h.length ▸ (List.getElem?_eq_some_iff.1 he).1
    rw [List.getElem?_append_left hlt] at hb
    exact h.tables c e he b hb
  have hlast : (w.tables ++ [.start w.source settings])[s.tables.length]? =
      some (.start w.source settings) := by
    rw [h.length, List.getElem?_concat_length]
  exact {
    undisturbed := h.undisturbed.openTable settings
    indexed := hc.indexed
    items := hc.items
    binding := hc.binding
    length := by
      change (s.tables ++ [_]).length = (w.tables ++ [_]).length
      rw [List.length_append, List.length_append, h.length]
      rfl
    tables := by
      refine EachTable.append hold fun b hb => ?_
      obtain rfl := Option.some.inj (hlast.symm.trans hb)
      exact shows_start w.source rfl rfl (by rw [← h.tree_eq]; rfl) }

end Refines

end GroupedRows
