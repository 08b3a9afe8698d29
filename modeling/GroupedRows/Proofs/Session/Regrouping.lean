import GroupedRows.Proofs.GroupTree.SharedLevels
import GroupedRows.Proofs.Session.UnmovedRows

/-!
# What stays open when a table is grouped anew

A table that keeps its open groups looks their paths up in the new tree. Over items that
it has shown before, these are groups of the new tree exactly as far as the new list of
properties begins like the old one. So grouping on and back again leaves the same groups
open, and shows the same rows.
-/

namespace GroupedRows

open Call Session

/-- An expansion all of whose paths name groups is left as it is. -/
theorem Expansion.restrict_eq_self {e : Expansion} {t : GroupTree} (ht : t.IsBuilt)
    (h : ∀ k ∈ e, t.contains k = true) : e.restrict t = e := by
  unfold restrict
  split
  · obtain ⟨paths, hnodup⟩ := e
    have hpaths : paths.filter t.contains = paths := List.filter_eq_self.2 h
    simp only [hpaths]
  · rename_i hgroups
    exact (ht.eq_empty (Bool.eq_false_iff.2 hgroups) h).symm

namespace Table

variable {t : Table} {source : Source}

/-- The table keeps open groups when it is grouped anew, and grouping opens none. -/
structure KeepsOpen (t : Table) : Prop where
  restore : t.settings.restoreExpansion = true
  expand : t.settings.expandOnGrouping = false

theorem KeepsOpen.rebuilt (h : t.KeepsOpen) (source : Source) (properties : List String)
    (expandAll : Bool) : (t.rebuilt source properties expandAll).KeepsOpen :=
  ⟨h.restore, h.expand⟩

/-- A rebuilt table is grouped by the properties given. -/
theorem properties_rebuilt (t : Table) (source : Source) (properties : List String)
    (expandAll : Bool) : (t.rebuilt source properties expandAll).properties = properties :=
  GroupTree.properties_build _ _ _

/-- What a rebuilt table shows fits together, whatever it has shown before. -/
theorem coherent_rebuilt (t : Table) (source : Source) (properties : List String)
    (expandAll : Bool) : (t.rebuilt source properties expandAll).arrangement.Coherent :=
  Arrangement.coherent_regroup _ (GroupTree.isBuilt_build _ _ _) _ _

/-- Tables that have the same tree and the same open groups once they are synced show the same. -/
theorem shown_eq_of_synced {t' : Table} {source' : Source} (h : t.arrangement.Coherent)
    (h' : t'.arrangement.Coherent) (hactive : source'.isActive = source.isActive)
    (htree : (t'.synced source').tree = (t.synced source).tree)
    (hexpansion : (t'.synced source').arrangement.expansion =
      (t.synced source).arrangement.expansion) : t'.shown source' = t.shown source := by
  unfold shown
  rw [hactive]
  split
  · rw [(coherent_synced h source).look_eq, (coherent_synced h' source').look_eq, hexpansion]
    exact congrArg (Snapshot.flatten · _) htree
  · rfl

/-- What stays open is what the new tree still has. -/
theorem KeepsOpen.expansion_rebuilt (h : t.KeepsOpen) (source : Source)
    (properties : List String) :
    (t.rebuilt source properties false).arrangement.expansion =
      t.arrangement.expansion.restrict (source.tree properties) := by
  simp [Table.rebuilt, Arrangement.regroup, Arrangement.carried, h.restore]

/-- An open group of present items stays open as far as the lists of properties begin alike. -/
theorem KeepsOpen.mem_expansion_rebuilt (h : t.KeepsOpen) (hcoherent : t.arrangement.Coherent)
    (hpresent : t.tree = source.tree t.properties) (properties : List String) {k : GroupPath} :
    k ∈ (t.rebuilt source properties false).arrangement.expansion ↔
      k ∈ t.arrangement.expansion ∧ k.depth ≤ GroupTree.sharedDepth t.properties properties := by
  have hshared : k ∈ t.arrangement.expansion →
      ((source.tree properties).contains k = true ↔
        k.depth ≤ GroupTree.sharedDepth t.properties properties) := fun hk =>
    GroupTree.contains_build_iff_of_contains
      ((congrArg (·.contains k) hpresent).symm.trans (hcoherent.contains_of_open k hk))
  rw [h.expansion_rebuilt, Expansion.mem_restrict]
  constructor
  · rintro ⟨_, hc, hk⟩
    exact ⟨hk, (hshared hk).1 hc⟩
  · rintro ⟨hk, hdepth⟩
    have hc := (hshared hk).2 hdepth
    refine ⟨?_, hc, hk⟩
    cases properties with
    | nil => exact absurd ((GroupTree.contains_build_nil _ _ k).symm.trans hc) Bool.false_ne_true
    | cons => rw [GroupTree.hasGroups, Source.tree, ItemStore.tree, GroupTree.properties_build]; rfl

/-- If the lists begin alike down to all open groups, then all stay open. -/
theorem KeepsOpen.expansion_rebuilt_eq (h : t.KeepsOpen) (hcoherent : t.arrangement.Coherent)
    (hpresent : t.tree = source.tree t.properties) (properties : List String)
    (hdepth : ∀ k ∈ t.arrangement.expansion,
      k.depth ≤ GroupTree.sharedDepth t.properties properties) :
    (t.rebuilt source properties false).arrangement.expansion = t.arrangement.expansion := by
  rw [h.expansion_rebuilt]
  refine Expansion.restrict_eq_self (GroupTree.isBuilt_build _ _ _) fun k hk => ?_
  have hc := (h.mem_expansion_rebuilt hcoherent hpresent properties).2 ⟨hk, hdepth k hk⟩
  rw [h.expansion_rebuilt, Expansion.mem_restrict] at hc
  exact hc.2.1

/-- To apply a pending change moves nothing in a table that shows the present items. -/
theorem KeepsOpen.synced_eq (h : t.KeepsOpen) (hcoherent : t.arrangement.Coherent)
    (hpresent : t.tree = source.tree t.properties) :
    (t.synced source).tree = t.tree ∧
      (t.synced source).arrangement.expansion = t.arrangement.expansion := by
  unfold synced
  split
  · refine ⟨hpresent.symm, h.expansion_rebuilt_eq hcoherent hpresent _ fun k hk => ?_⟩
    have hc := hcoherent.contains_of_open k hk
    rw [show t.arrangement.tree = _ from hpresent] at hc
    have hself := GroupTree.length_le_sharedDepth_append t.properties []
    rw [List.append_nil] at hself
    exact Nat.le_trans (GroupTree.depth_le_of_contains_build hc) hself.1
  · exact ⟨rfl, rfl⟩

/-- To group on and back again leaves tree and open groups as they were. -/
theorem KeepsOpen.rebuilt_rebuilt (h : t.KeepsOpen) (hcoherent : t.arrangement.Coherent)
    (hpresent : t.tree = source.tree t.properties) (more : List String) :
    let back := (t.rebuilt source (t.properties ++ more) false).rebuilt source t.properties false
    back.tree = t.tree ∧ back.arrangement.expansion = t.arrangement.expansion := by
  intro back
  have hopen : ∀ k ∈ t.arrangement.expansion, k.depth ≤ t.properties.length := by
    intro k hk
    have hc := hcoherent.contains_of_open k hk
    rw [show t.arrangement.tree = _ from hpresent] at hc
    exact GroupTree.depth_le_of_contains_build hc
  obtain ⟨hon, hback⟩ := GroupTree.length_le_sharedDepth_append t.properties more
  have hfirst := h.expansion_rebuilt_eq hcoherent hpresent (t.properties ++ more) fun k hk =>
    Nat.le_trans (hopen k hk) hon
  refine ⟨hpresent.symm, .trans ?_ hfirst⟩
  refine (h.rebuilt source _ false).expansion_rebuilt_eq
    (Arrangement.coherent_regroup _ (GroupTree.isBuilt_build _ _ _) _ _) ?_ _ fun k hk => ?_
  · rw [properties_rebuilt]
    rfl
  · rw [properties_rebuilt]
    rw [hfirst] at hk
    exact Nat.le_trans (hopen k hk) hback

end Table

namespace Session

/-- A call that groups a table has grouped it when it sends its first notice. -/
theorem start_groupBy {s : Session} {c : TableId} {t : Table} (ht : s.table? c = some t)
    (properties : List String) :
    (groupBy c properties).start s = .sends (.grouped c properties)
      ((s.write (repeatLog properties)).rebuild c properties t.settings.expandOnGrouping)
      fun s => .sends (.layout c) s fun s => .ended () s := by
  have hread : ∀ f : Session → Call Unit, (read >>= f).start s = (f s).start s := fun _ => rfl
  unfold groupBy
  rw [hread, ht]
  rfl

/-- An open table in a session in which nobody acts. -/
structure Calm (s : Session) (c : TableId) (t : Table) : Prop where
  quiet : s.Quiet
  deaf : s.Deaf
  entry : ∃ e, s.tables[c]? = some e ∧ e.isOpen = true ∧ e.table = t

namespace Calm

variable {s s' : Session} {c : TableId} {t : Table}

theorem isOpen (h : s.Calm c t) : s.isOpen c = true := by
  obtain ⟨e, he, hopen, _⟩ := h.entry
  rw [Session.isOpen, he]
  exact hopen

theorem table (h : s.Calm c t) : s.table? c = some t := by
  obtain ⟨e, he, _, ht⟩ := h.entry
  exact table?_eq_some_iff.2 ⟨e, he, ht⟩

theorem write (h : s.Calm c t) (records : List LogRecord) : (s.write records).Calm c t :=
  ⟨h.quiet, h.deaf, h.entry⟩

/-- The table is changed, and its signals are not. -/
theorem modifyEntry (h : s.Calm c t) {f : TableEntry → TableEntry} (g : Table → Table)
    (hf : ∀ e, (f e).isOpen = e.isOpen ∧ (f e).table = g e.table)
    (hsignals : ∀ t, (g t).signals = t.signals) : (s.modifyEntry c f).Calm c (g t) where
  quiet := h.quiet
  deaf := EachTable.modifyEntry h.deaf fun e he => by
    unfold Table.Deaf
    rw [(hf e).2, hsignals]
    exact h.deaf c e he
  entry := by
    obtain ⟨e, he, hopen, rfl⟩ := h.entry
    exact ⟨f e, getElem?_modifyEntry he f, (hf e).1.trans hopen, (hf e).2⟩

theorem enter (h : s.Calm c t) : (s.enter c).Calm c t :=
  h.modifyEntry id (fun _ => ⟨rfl, rfl⟩) fun _ => rfl

/-- An open table stays connected when a call on it returns. -/
theorem leave (h : s.Calm c t) : (s.leave c).source = s.source ∧ (s.leave c).Calm c t := by
  have hleft : (s.modifyEntry c fun e => { e with calls := e.calls - 1 }).Calm c t :=
    h.modifyEntry id (fun _ => ⟨rfl, rfl⟩) fun _ => rfl
  unfold Session.leave
  rw [release_of_isOpen hleft.isOpen]
  exact ⟨rfl, hleft⟩

/-- A rebuild leaves a table calm, with a tree of the present items. -/
theorem rebuild (h : s.Calm c t) (properties : List String) (expandAll : Bool) :
    (s.rebuild c properties expandAll).Calm c (t.rebuilt s.source properties expandAll) := by
  unfold Session.rebuild
  rw [h.table]
  exact (h.write _).modifyEntry (fun t => t.rebuilt s.source properties expandAll)
    (fun _ => ⟨rfl, rfl⟩) fun _ => rfl

/-- Whoever hears of a table leaves source and table alone. -/
theorem emit (h : s.Calm c t) (depth : Nat) {n : Notice} {d : TableId}
    (hd : n.channel.table? = some d) :
    (Session.emit depth n s).source = s.source ∧ (Session.emit depth n s).Calm c t := by
  obtain ⟨hsource, htables⟩ := Deaf.emit_table h.deaf h.quiet depth hd
  refine ⟨hsource, (heard_emit depth n h.quiet).quiet, ?_, htables ▸ h.entry⟩
  unfold Deaf EachTable
  rw [htables]
  exact h.deaf

/-- Grouping rebuilds the table, and nothing else happens to it. -/
theorem groupBy (h : s.Calm c t) (hkeeps : t.KeepsOpen) (depth : Nat) (properties : List String) :
    let s' := ((runStep (.table c (.groupBy properties))).run (Session.emit depth) s).2
    s'.source = s.source ∧ s'.Calm c (t.rebuilt s.source properties false) := by
  intro s'
  have hrebuilt := (h.enter.write (repeatLog properties)).rebuild properties false
  obtain ⟨hsource₁, hgrouped⟩ := hrebuilt.emit depth (n := .grouped c properties) rfl
  obtain ⟨hsource₂, hlayout⟩ := hgrouped.emit depth (n := .layout c) rfl
  obtain ⟨hsource₃, hleft⟩ := hlayout.leave
  have hs' : s' = (Session.emit depth (.layout c) (Session.emit depth (.grouped c properties)
      (((s.enter c).write (repeatLog properties)).rebuild c properties false))).leave c := by
    simp only [s', runStep, calling, runTable, Session.groupBy, run_bind, run_read, run_change,
      run_send, run_pure, h.isOpen, if_true, h.enter.table, hkeeps.expand]
  rw [hs']
  refine ⟨?_, hleft⟩
  rw [hsource₃, hsource₂, hsource₁, source_rebuild]
  rfl

/-- A question to the table is asked while its call is counted. -/
theorem answer_calling (h : s.Calm c t) (emit : Emit) (call : Call Answer) :
    ((calling c call).run emit s).1 = (call.run emit (s.enter c)).1 := by
  simp only [calling, run_bind, run_read, h.isOpen, if_true, run_change, run_pure]

/-- Whether a group is open is answered by the synced table. -/
theorem answer_isExpanded (h : s.Calm c t) (hcoherent : t.arrangement.Coherent) (depth : Nat)
    (k : GroupPath) :
    ((runStep (.askTable c (.isExpanded k))).run (Session.emit depth) s).1 =
      .flag ((t.synced s.source).arrangement.expansion.contains k) := by
  obtain ⟨_, hsynced⟩ :=
    (h.enter.deaf.layoutIgnored h.enter.quiet depth c).sync h.enter.table
  refine (h.answer_calling _ _).trans ?_
  rw [← (Table.coherent_synced hcoherent s.source).isExpanded_eq]
  simp only [askTable, run_bind, run_read, run_pure, hsynced, Option.any_some]
  rfl

/-- What the tree tells is told by the tree of the synced table. -/
theorem answer_askTree (h : s.Calm c t) (depth : Nat) (answer : GroupTree → Answer) :
    ((calling c (askTree c answer)).run (Session.emit depth) s).1 =
      answer (t.synced s.source).tree :=
  (h.answer_calling _ _).trans
    ((h.enter.deaf.layoutIgnored h.enter.quiet depth c).askTree h.enter.table answer)

/-- What the rows tell is told by those that the table shows. -/
theorem answer_askRows (h : s.Calm c t) (depth : Nat) (answer : Snapshot → Answer) :
    ((calling c (askRows c answer)).run (Session.emit depth) s).1 = answer (t.shown s.source) := by
  have hvisible := (h.enter.deaf.layoutIgnored h.enter.quiet depth c).visible h.enter.table
  refine (h.answer_calling _ _).trans ?_
  simp only [askRows, run_bind, run_pure, hvisible]
  rfl

/-- The rows are those that the table shows. -/
theorem answer_rows (h : s.Calm c t) (depth : Nat) :
    ((runStep (.askTable c .rows)).run (Session.emit depth) s).1 =
      .rows (t.shown s.source).rows :=
  h.answer_askRows depth fun v => .rows v.rows

end Calm

end Session

namespace Moment

/-- No table ever hears a table, whatever code outside does. -/
theorem safe_deaf (allowed : Session → Step → Prop) : Safe allowed fun _ s => s.Deaf :=
  .of_alterations (fun _ _ _ h hs => Deaf.alters h hs) (fun _ _ _ h => h)
    (fun _ _ _ _ h _ => h) (fun _ _ _ _ _ _ h => h)
    (fun _ n r _ s h => by
      cases r with
      | journal | listener => exact h
      | table c => exact EachTable.modifyTable h fun e he => h c e he)
    (fun _ _ _ h => h)

/-- Take an open table at any moment, whatever code outside has done before, that has the tree of
the source's present items, keeps open groups when it is grouped anew, and opens none by grouping.
When it is grouped by another list of properties, then before anybody hears of it those groups are
open that were open and lie on the levels down to which the two lists begin alike. If listeners do
nothing, then answers show the same afterwards, and to group by a longer list and back by the old
one leaves the same groups open, and the same rows. -/
theorem shared_expansion_survives {store : ItemStore} {log : List LogRecord} {m : Moment}
    (h : Reaches AnyStep ⟨ofStore store log, []⟩ m) {c : TableId} {t : Table}
    (ht : m.session.table? c = some t) (hopen : m.session.isOpen c = true)
    (hrestore : t.settings.restoreExpansion = true)
    (hexpand : t.settings.expandOnGrouping = false)
    (hpresent : t.tree = m.session.source.tree t.properties) :
    let s := m.session
    (∀ new, ∃ s' t' rest, (groupBy c new).start s = .sends (.grouped c new) s' rest ∧
      s'.source = s.source ∧ s'.table? c = some t' ∧ ∀ k, k ∈ t'.arrangement.expansion ↔
        k ∈ t.arrangement.expansion ∧ k.depth ≤ GroupTree.sharedDepth t.properties new) ∧
    (s.Quiet → ∀ depth,
      let ask (s : Session) (q : TableQuery) := ((runStep (.askTable c q)).run (emit depth) s).1
      let group (properties : List String) (s : Session) :=
        ((runStep (.table c (.groupBy properties))).run (emit depth) s).2
      (∀ new k, ask (group new s) (.isExpanded k) = .flag true ↔
        ask s (.isExpanded k) = .flag true ∧ k.depth ≤ GroupTree.sharedDepth t.properties new) ∧
      ∀ more, let back := group t.properties (group (t.properties ++ more) s)
        (∀ k, ask back (.isExpanded k) = ask s (.isExpanded k)) ∧ ask back .rows = ask s .rows) := by
  intro s
  have hcoherent : t.arrangement.Coherent := by
    obtain ⟨e, rfl, he⟩ := EachTable.table
      ((safe_allCoherent AnyStep).holds (eachArrangement_ofStore _ _) h) ht
    exact he
  have hkeeps : t.KeepsOpen := ⟨hrestore, hexpand⟩
  refine ⟨fun new => ?_, fun hquiet depth => ?_⟩
  · have htable := table?_rebuild (s := s.write (repeatLog new)) ht new false
    have hstart := start_groupBy ht new
    rw [hexpand] at hstart
    exact ⟨_, _, _, hstart, source_rebuild _ _ _ _, htable, fun k =>
      hkeeps.mem_expansion_rebuilt hcoherent hpresent new⟩
  · intro ask group
    have hcalm : s.Calm c t := by
      obtain ⟨e, he, rfl⟩ := table?_eq_some_iff.1 ht
      rw [isOpen, he, Option.any_some] at hopen
      exact ⟨hquiet, (safe_deaf AnyStep).holds (deaf_ofStore _ _) h, e, he, hopen, rfl⟩
    obtain ⟨htree, hexpansion⟩ := hkeeps.synced_eq hcoherent hpresent
    have hbefore : ∀ k, ask s (.isExpanded k) = .flag (t.arrangement.expansion.contains k) :=
      fun k => hexpansion ▸ hcalm.answer_isExpanded hcoherent depth k
    refine ⟨fun new k => ?_, fun more => ?_⟩
    · obtain ⟨_, hnew⟩ := hcalm.groupBy hkeeps depth new
      have hafter : ask (group new s) (.isExpanded k) = _ :=
        hnew.answer_isExpanded (t.coherent_rebuilt _ _ _) depth k
      rw [hafter, hbefore, Answer.flag.injEq, Answer.flag.injEq, Expansion.contains_iff,
        Expansion.contains_iff]
      exact hkeeps.mem_expansion_rebuilt hcoherent hpresent new
    · intro back
      obtain ⟨hsource, hon⟩ := hcalm.groupBy hkeeps depth (t.properties ++ more)
      obtain ⟨hsource', hback⟩ := hon.groupBy (hkeeps.rebuilt _ _ _) depth t.properties
      rw [hsource] at hback hsource'
      obtain ⟨htree', hexpansion'⟩ := hkeeps.rebuilt_rebuilt hcoherent hpresent more
      refine ⟨fun k => ?_, ?_⟩
      · have hafter : ask back (.isExpanded k) = _ :=
          hback.answer_isExpanded (Table.coherent_rebuilt _ _ _ _) depth k
        rw [hafter, hbefore]
        exact congrArg (Answer.flag <| ·.contains k) hexpansion'
      · have hrows : ask back .rows = _ := hback.answer_rows depth
        rw [hrows, hsource', show ask s .rows = _ from hcalm.answer_rows depth]
        exact congrArg (Answer.rows ·.rows) (Table.shown_eq_of_synced hcoherent
          (Table.coherent_rebuilt _ _ _ _) rfl (htree'.trans htree.symm)
          (hexpansion'.trans hexpansion.symm))

/-- A list of properties that repeats the first on its third level gives way to one that repeats
the second: two levels stay open, and the third does not. -/
theorem shared_expansion_survives_repeated_property :
    let outer := GroupPath.root "kind" .absent
    let inner := outer.child "size" .absent
    let s := (runAll 0 [
      .openTable (.changes [.properties ["kind", "size", "kind"]]),
      .table 0 .expandAll] (start [⟨.number 1, .empty⟩])).2
    let s' := ((runStep (.table 0 (.groupBy ["kind", "size", "size"]))).run (emit 0) s).2
    let ask (s : Session) (k : GroupPath) :=
      ((runStep (.askTable 0 (.isExpanded k))).run (emit 0) s).1
    ask s (inner.child "kind" .absent) = .flag true ∧ ask s' outer = .flag true ∧
      ask s' inner = .flag true ∧ ask s' (inner.child "size" .absent) ≠ .flag true := by
  intro outer inner s s' ask
  have hs : Reaches AnyStep ⟨start _, []⟩ ⟨s, []⟩ := reaches_runAll_ofStore _ _ 0 _
  obtain ⟨t, ht, hopen, hrestore, hexpand, hpresent, hp⟩ : ∃ t, s.table? 0 = some t ∧
      s.isOpen 0 = true ∧ t.settings.restoreExpansion = true ∧
      t.settings.expandOnGrouping = false ∧ t.tree = s.source.tree t.properties ∧
      t.properties = ["kind", "size", "kind"] := ⟨_, rfl, rfl, rfl, rfl, rfl, rfl⟩
  have hafter := ((shared_expansion_survives hs ht hopen hrestore hexpand hpresent).2
    (fun l hl => absurd hl List.not_mem_nil) 0).1 ["kind", "size", "size"]
  rw [hp] at hafter
  refine ⟨rfl, (hafter outer).2 ⟨rfl, by decide⟩, (hafter inner).2 ⟨rfl, by decide⟩, fun h => ?_⟩
  exact absurd ((hafter _).1 h).2 (by decide)

end Moment

end GroupedRows
