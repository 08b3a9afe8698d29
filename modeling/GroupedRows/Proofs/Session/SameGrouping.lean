import GroupedRows.Proofs.Session.VeiledRuns
import GroupedRows.Proofs.Session.Views

/-!
# Ways to the same grouping

A table can be grouped when it is made, or afterwards. Both ways lead to the same tree and the same
open groups, and nothing but the settings tells them apart later. Where grouping does not open all
groups and nobody acts, to group a table by its active properties is to refresh it, and a question
about the tree refreshes a table that is stale.
-/

namespace GroupedRows

open Call Session

/-! ## Grouping a table that has no groups -/

/-- A new tree replaces one without groups as if it had been the first. -/
theorem Arrangement.regroup_start {t : GroupTree} (hgroups : t.hasGroups = false)
    (tree : GroupTree) (restore expandAll : Bool) :
    (start t expandAll).regroup tree restore expandAll = start tree expandAll := by
  have hempty : (start t expandAll).expansion = .empty := by
    simp only [start, hgroups, Bool.and_false, Bool.false_eq_true, if_false]
  have hrestrict : Expansion.empty.restrict tree = .empty := by
    unfold Expansion.restrict
    split <;> rfl
  unfold regroup carried
  rw [hempty, hrestrict, ite_self]
  rfl

/-- Without properties there are no groups. -/
theorem Source.hasGroups_tree_nil (source : Source) : (source.tree []).hasGroups = false := by
  rw [tree, ItemStore.tree, GroupTree.hasGroups, GroupTree.properties_build]
  rfl

/-- The question is answered in the tree, once a pending change has been applied. -/
def TableQuery.AboutTree : TableQuery → Prop
  | .hasGroups | .properties | .roots | .contains _ | .isGroup (.group _) | .groupOf (.group _)
  | .hasChildren _ | .children _ | .ownItems _ | .items _ | .property _ | .value _ | .itemIds _
  | .itemCount _ | .leafOf _ | .pathOf _ | .isExpanded _ | .outline _ => True
  | _ => False

namespace Session

variable {v : Veil} {s s' : Session} {c d : TableId} {t : Table} {n : Notice} {emit : Emit}

/-- The session after a step, when its events have been taken out of the journal. -/
def settled (s : Session) : Session := { s with journal := [] }

/-- Taking out the events changes nothing about what is seen alike. -/
theorem settled_of_veiled (h : s.veiled v = s'.veiled v) :
    s.settled.veiled v = s'.settled.veiled v :=
  congrArg settled h

/-- Signals have no part in the journal. -/
theorem signal_settled (s : Session) (channel : Channel) :
    s.settled.signal channel = s.signal channel := by
  cases channel <;> rfl

/-- A release has no part in the journal. -/
theorem settled_release (s : Session) (c : TableId) :
    (s.release c).settled = s.settled.release c := by
  unfold release
  rw [show s.settled.tables = s.tables from rfl]
  cases s.tables[c]? with
  | none => rfl
  | some e =>
    dsimp only
    split <;> rfl

/-! ## Notices that nobody sees -/

/-- Scripts are seen through every veil. -/
theorem quiet_of_veiled (h : s.veiled v = s'.veiled v) (hquiet : s'.Quiet) : s.Quiet := by
  intro l hl
  have hlisteners : s.listeners.map v.listener = s'.listeners.map v.listener :=
    (congrArg listeners h :)
  have hmem := List.mem_map_of_mem (f := v.listener) hl
  rw [hlisteners] at hmem
  obtain ⟨l', hl', heq⟩ := List.mem_map.1 hmem
  exact (congrArg Listener.script heq :).symm.trans (hquiet l' hl')

/-- Where scripts are empty, a listener that is called changes nothing that is seen. -/
theorem veiled_act_of_quiet (hcalls : v.calls = true) (hquiet : s.Quiet) (number : Nat) :
    (act emit number n s).veiled v = s.veiled v := by
  cases hl : s.listeners[number]? with
  | none => simp only [act, hl]
  | some l => exact veiled_act_of_idle hcalls hl (hquiet l (List.mem_of_getElem? hl)) n

/-- If whoever is called does nothing that is seen, then only the journal notes the notice. -/
theorem veiled_emitWith {act : Nat → Emit}
    (hreceivers : ∀ r ∈ (s.signal n.channel).audience,
      r = .journal ∨ ∃ number, r = .listener number ∧
        ∀ t : Session, t.settled.veiled v = s.settled.veiled v →
          (act number n t).settled.veiled v = t.settled.veiled v) :
    (emitWith act n s).settled.veiled v = s.settled.veiled v := by
  have hbegun : (s.beginEmission n).settled.veiled v = s.settled.veiled v := rfl
  refine Signal.deliver_preserves (P := fun t : Session => t.settled.veiled v = s.settled.veiled v)
    (fun r hr t ht => ?_) hbegun
  obtain rfl | ⟨number, rfl, hact⟩ := hreceivers r hr
  · exact ht
  · exact (hact t ht).trans ht

/-- A notice that only the journal hears changes nothing else that is seen. -/
theorem veiled_emit_journal (haudience : (s.signal n.channel).audience = [.journal]) (depth : Nat) :
    (Session.emit depth n s).settled.veiled v = s.settled.veiled v := by
  have hreceivers : ∀ r ∈ (s.signal n.channel).audience, r = .journal := by
    intro r hr
    rw [haudience] at hr
    exact List.mem_singleton.1 hr
  cases depth <;> exact veiled_emitWith fun r hr => .inl (hreceivers r hr)

/-- Where nobody acts, a notice of a table changes nothing that is seen, unless calls are. -/
theorem Calm.veiled_emit (h : s.Calm c t) (hcalls : v.calls = true)
    (hn : n.channel.table? = some d) (depth : Nat) :
    (Session.emit depth n s).settled.veiled v = s.settled.veiled v := by
  have hreceivers : ∀ r ∈ (s.signal n.channel).audience,
      r = .journal ∨ ∃ number, r = .listener number := by
    intro r hr
    cases r with
    | journal => exact .inl rfl
    | table c => exact absurd hr (Deaf.not_mem_audience h.deaf hn c)
    | listener number => exact .inr ⟨number, rfl⟩
  cases depth with
  | zero =>
    refine veiled_emitWith fun r hr => (hreceivers r hr).imp_right fun ⟨number, hnumber⟩ =>
      ⟨number, hnumber, fun _ _ => rfl⟩
  | succ depth =>
    refine veiled_emitWith fun r hr => (hreceivers r hr).imp_right fun ⟨number, hnumber⟩ =>
      ⟨number, hnumber, fun t ht => settled_of_veiled ?_⟩
    have hquiet : t.settled.Quiet := quiet_of_veiled ht h.quiet
    exact veiled_act_of_quiet hcalls (s := t) hquiet number

/-! ## Grouping and refreshing -/

theorem run_refresh (ht : s.table? c = some t) :
    ((refresh c).run emit s).2 = emit (.layout c) (s.rebuild c t.properties false) := by
  simp only [refresh, run_bind, run_read, ht, run_change, run_send]

/-- To group a table rebuilds it, and announces this and its layout. -/
theorem run_groupBy (ht : s.table? c = some t) (properties : List String) :
    ((groupBy c properties).run emit s).2 = emit (.layout c) (emit (.grouped c properties)
      ((s.write (repeatLog properties)).rebuild c properties t.settings.expandOnGrouping)) := by
  simp only [groupBy, run_bind, run_read, ht, run_change, run_send]

/-- A question about the tree changes no more than applying a pending change. -/
theorem run_askTable_of_aboutTree {q : TableQuery} (hq : q.AboutTree) :
    ((askTable c q).run emit s).2 = ((sync c).run emit s).2 := by
  cases q with
  | isGroup r | groupOf r =>
    cases r with
    | group k => simp only [askTable, askTree, askGroup, run_bind, run_read, run_pure]
    | item id => exact hq.elim
  | outline options =>
    simp only [askTable, outline, run_bind, run_read]
    split <;> rfl
  | rows | size | first | last | next | previous | isFirst | isLast | positionOf | rowAt | settings
  | sourceSize | walk => exact hq.elim
  | _ => simp only [askTable, askTree, askGroup, askItems, run_bind, run_read, run_pure]

/-- The end of a call has no part in the journal. -/
theorem settled_leave (s : Session) (c : TableId) : (s.leave c).settled = s.settled.leave c :=
  settled_release (s.modifyEntry c _) c

/-- If only the journal hears of a table, then to group the table is seen as a change of it. Signals
are seen, so the first notice leaves the audience of the second as it was. -/
theorem veiled_groupBy_journal (hopen : s.isOpen c = true) (ht : s.table? c = some t)
    (hgrouped : t.grouped.audience = [.journal]) (hlayout : t.layout.audience = [.journal])
    (properties : List String) (depth : Nat) :
    ((runStep (.table c (.groupBy properties))).run (Session.emit depth) s).2.settled.veiled v =
      (s.settled.veiled v).modifyTable c fun t' =>
        t'.rebuilt s.source properties t.settings.expandOnGrouping := by
  have hentered : (s.enter c).table? c = some t := by
    obtain ⟨e, he, rfl⟩ := table?_eq_some_iff.1 ht
    exact table?_eq_some_iff.2 ⟨_, getElem?_modifyEntry he _, rfl⟩
  let written := (s.enter c).write (repeatLog properties)
  let rebuilt := written.rebuild c properties t.settings.expandOnGrouping
  let group (t' : Table) := t'.rebuilt s.source properties t.settings.expandOnGrouping
  have hrebuilt : rebuilt.table? c = some (group t) := table?_rebuild (s := written) hentered _ _
  have hrun : ((runStep (.table c (.groupBy properties))).run (Session.emit depth) s).2 =
      (Session.emit depth (.layout c)
        (Session.emit depth (.grouped c properties) rebuilt)).leave c := by
    simp only [runStep, runTable, calling, run_bind, run_read, hopen, if_true, run_change, run_pure,
      run_groupBy hentered]
    rfl
  have hfirst : (Session.emit depth (.grouped c properties) rebuilt).settled.veiled v =
      rebuilt.settled.veiled v := by
    refine veiled_emit_journal ?_ depth
    simp only [Notice.channel, signal, hrebuilt, Option.map_some, Option.getD_some]
    exact hgrouped
  have hsecond : (Session.emit depth (.layout c)
      (Session.emit depth (.grouped c properties) rebuilt)).settled.veiled v =
        rebuilt.settled.veiled v := by
    refine (veiled_emit_journal ?_ depth).trans hfirst
    rw [← signal_settled, signal_eq hfirst, signal_settled]
    simp only [Notice.channel, signal, hrebuilt, Option.map_some, Option.getD_some]
    exact hlayout
  have hveiled : rebuilt.settled.veiled v = ((s.settled.veiled v).enter c).modifyTable c group := by
    have henter : (s.enter c).veiled v = (s.veiled v).enter c := veiled_modifyEntry fun _ => rfl
    rw [← show _ = (s.settled.veiled v).enter c from congrArg settled henter]
    exact congrArg settled (veiled_rebuild written c properties _)
  rw [hrun, settled_leave]
  calc
    _ = (rebuilt.settled.leave c).veiled v := respects_leave c _ _ hsecond
    _ = (rebuilt.settled.veiled v).leave c := veiled_retire _ fun _ => rfl
    _ = (s.settled.veiled v).modifyTable c group := by
      rw [hveiled, leave_modifyTable_enter ((isOpen_veiled s.settled c).trans hopen)]

/-- A new table without groups becomes what it would have been with these grouping properties,
except for its settings. -/
theorem table_rebuilt_made (hsettings : v.settings = some c) (settings : Settings)
    (source : Source) :
    (v.table c (TableEntry.made settings.ungrouped source).table).rebuilt (source.linked c)
        settings.properties settings.expandOnGrouping =
      v.table c (TableEntry.made settings source).table := by
  have harrangement := Arrangement.regroup_start source.hasGroups_tree_nil
    (source.tree settings.properties) settings.restoreExpansion settings.expandOnGrouping
  simp only [Veil.table, hsettings, if_true]
  exact congrArg (fun arrangement => { (TableEntry.made settings source).table with
    settings := settings.ungrouped, arrangement }) harrangement

/-- A change of the last element leaves those before it. -/
theorem modify_length_concat {α : Type} (l : List α) (a : α) (f : α → α) :
    (l ++ [a]).modify l.length f = l ++ [f a] := by
  induction l with
  | nil => rfl
  | cons b l ih => exact congrArg (b :: ·) ih

/-- A table that is grouped right after it has been made is seen as one that has been made with
these grouping properties. Here it matters which settings are not seen: those that differ are the
ones that name the properties. -/
theorem veiled_groupBy_openTable (s : Session) (settings : Settings) (depth : Nat) :
    let c := s.tables.length
    let v := Veil.overSettings c
    ((runStep (.table c (.groupBy settings.properties))).run (Session.emit depth)
      (s.openTable settings.ungrouped).settled).2.settled.veiled v =
        (s.openTable settings).settled.veiled v := by
  intro c v
  let made (settings : Settings) := TableEntry.made settings s.source
  let before := (s.veiled v).tables
  let after (tables : List TableEntry) : Session :=
    { s.veiled v with source := s.source.linked c, tables, journal := [] }
  have hopened : ∀ settings, (s.openTable settings).settled.veiled v =
      after (before ++ [v.entry c (made settings)]) := fun settings =>
    congrArg settled (veiled_openTable s settings)
  have hentry : (s.openTable settings.ungrouped).tables[c]? = some (made settings.ungrouped) :=
    List.getElem?_concat_length
  have hopen : (s.openTable settings.ungrouped).isOpen c = true := by
    rw [isOpen, hentry]
    rfl
  have hgrouped := veiled_groupBy_journal (s := (s.openTable settings.ungrouped).settled) (v := v)
    hopen (table?_eq_some_iff.2 ⟨_, hentry, rfl⟩) rfl rfl settings.properties depth
  let group (t : Table) :=
    t.rebuilt (s.source.linked c) settings.properties settings.expandOnGrouping
  have htables := modify_length_concat before (v.entry c (made settings.ungrouped))
    fun e => { e with table := group e.table }
  rw [length_tables_veiled] at htables
  have hmade : group (v.table c (made settings.ungrouped).table) =
      v.table c (made settings).table := table_rebuilt_made rfl settings s.source
  calc
    _ = ((s.openTable settings.ungrouped).settled.veiled v).modifyTable c group := hgrouped
    _ = (after (before ++ [v.entry c (made settings.ungrouped)])).modifyTable c group := by
      rw [hopened]
    _ = after (before ++ [⟨group (v.table c (made settings.ungrouped).table), true, 0⟩]) :=
      congrArg after htables
    _ = (s.openTable settings).settled.veiled v := by
      rw [hmade, hopened]
      rfl

/-- To group a table by its active properties is to refresh it. -/
theorem Calm.veiled_groupBy (h : s.Calm c t) (hcalls : v.calls = true)
    (hexpand : t.settings.expandOnGrouping = false) (depth : Nat) :
    ((runStep (.table c (.groupBy t.properties))).run (Session.emit depth) s).2.settled.veiled v =
      ((runStep (.table c .refresh)).run (Session.emit depth) s).2.settled.veiled v := by
  let rebuilt := (s.enter c).rebuild c t.properties false
  let regrouped := ((s.enter c).write (repeatLog t.properties)).rebuild c t.properties false
  have hrebuilt : rebuilt.Calm c _ := h.enter.rebuild t.properties false
  have hregrouped : regrouped.Calm c _ := (h.enter.write _).rebuild t.properties false
  have hgrouped := (hregrouped.emit depth (n := .grouped c t.properties) rfl).2
  have hsame : regrouped.veiled v = rebuilt.veiled v :=
    respects_rebuild c t.properties false ((s.enter c).write _) (s.enter c) rfl
  have hrefresh : ((runStep (.table c .refresh)).run (Session.emit depth) s).2 =
      (Session.emit depth (.layout c) rebuilt).leave c := by
    simp only [runStep, runTable, h.run_calling, run_bind, run_pure, run_refresh h.enter.table]
    rfl
  have hgroupBy : ((runStep (.table c (.groupBy t.properties))).run (Session.emit depth) s).2 =
      (Session.emit depth (.layout c)
        (Session.emit depth (.grouped c t.properties) regrouped)).leave c := by
    simp only [runStep, runTable, h.run_calling, run_bind, run_pure, run_groupBy h.enter.table,
      hexpand]
    rfl
  rw [hrefresh, hgroupBy, settled_leave, settled_leave]
  refine respects_leave c _ _ ?_
  calc
    _ = (Session.emit depth (.grouped c t.properties) regrouped).settled.veiled v :=
      hgrouped.veiled_emit hcalls rfl depth
    _ = regrouped.settled.veiled v := hregrouped.veiled_emit hcalls rfl depth
    _ = rebuilt.settled.veiled v := settled_of_veiled hsame
    _ = (Session.emit depth (.layout c) rebuilt).settled.veiled v :=
      (hrebuilt.veiled_emit hcalls rfl depth).symm

/-- A question about the tree of a stale table refreshes the table. -/
theorem Calm.run_askTable_of_stale (h : s.Calm c t) (hstale : t.stale = true) {q : TableQuery}
    (hq : q.AboutTree) :
    ((runStep (.askTable c q)).run emit s).2 = ((runStep (.table c .refresh)).run emit s).2 := by
  simp only [runStep, runTable, h.run_calling, run_bind, run_pure, run_askTable_of_aboutTree hq,
    run_sync h.enter.table, hstale, if_true, run_refresh h.enter.table]

end Session

namespace Moment

/-- Make a table with grouping properties, or make it with the same switches and without, and then
group it by these properties: no later run of steps shows a difference, whatever listeners do,
unless it asks for the settings of the table. Likewise, where nobody acts and grouping does not open
all groups, group an open table by its active properties, or refresh it: no later run shows a
difference but that the further notice may have used up calls of listeners who do nothing. If the
table is stale, then a question about its tree leads to the very session to which the refresh
leads. -/
theorem ways_to_group_agree (s : Session) (depth : Nat) :
    (∀ (settings : Settings) (recipe plain : Settings.Recipe), recipe.make? = some settings →
      plain.make? = some settings.ungrouped →
        let c := s.tables.length
        let made := (runTop depth (.openTable recipe) s).2
        let grouped := (runAll depth
          [.openTable plain, .table c (.groupBy settings.properties)] s).2
        Indistinct (.overSettings c) grouped made) ∧
    ∀ (store : ItemStore) (log : List LogRecord),
      Reaches AnyStep ⟨ofStore store log, []⟩ ⟨s, []⟩ → s.Quiet →
        ∀ (c : TableId) (t : Table), s.table? c = some t → s.isOpen c = true →
          t.settings.expandOnGrouping = false →
            let after (step : Step) := (runTop depth step s).2
            let refreshed := after (.table c .refresh)
            Indistinct .overCalls (after (.table c (.groupBy t.properties))) refreshed ∧
              (t.stale = true →
                ∀ q : TableQuery, q.AboutTree → after (.askTable c q) = refreshed) := by
  constructor
  · intro settings recipe plain hrecipe hplain c made grouped
    have hopen : ∀ {recipe : Settings.Recipe} {settings : Settings}, recipe.make? = some settings →
        (runTop depth (.openTable recipe) s).2 = (s.openTable settings).settled := by
      intro recipe settings hmake
      simp only [runTop, runStep, hmake]
      rfl
    refine indistinct_of_veiled ?_
    simp only [made, grouped, runAll, hopen hrecipe, hopen hplain]
    exact veiled_groupBy_openTable s settings depth
  · intro store log hreach hquiet c t ht hopen hexpand after refreshed
    obtain ⟨hcalm, -⟩ := hreach.calm hquiet ht hopen
    refine ⟨indistinct_of_veiled (hcalm.veiled_groupBy rfl hexpand depth), fun hstale q hq => ?_⟩
    exact congrArg settled (hcalm.run_askTable_of_stale hstale hq)

/-- A repeated property makes no difference, nor that all groups are opened; and each way to apply
the pending change of the other table brings in the pushed item. -/
theorem ways_to_group_agree_for_stale_table :
    let s := (runAll 0 [
      .openTable (.changes [.properties ["kind"]]),
      .source (.push ⟨.number 2, .empty⟩)] (start [⟨.number 1, .empty⟩])).2
    let after (step : Step) := (runTop 0 step s).2
    let recipe := Settings.Recipe.changes [.properties ["kind", "kind"], .expandOnGrouping true]
    let plain := Settings.Recipe.changes [.expandOnGrouping true]
    let made := after (.openTable recipe)
    let grouped := (runAll 0 [.openTable plain, .table 1 (.groupBy ["kind", "kind"])] s).2
    let refreshed := after (.table 0 .refresh)
    let opened := (runTop 0 (.table 0 .expandAll) refreshed).2
    let rows (c : TableId) (s : Session) := ((runStep (.askTable c .rows)).run (emit 0) s).1
    let outer := GroupPath.root "kind" .absent
    Indistinct (.overSettings 1) grouped made ∧
      rows 1 made = .rows [.group outer, .group (outer.child "kind" .absent),
        .item (.number 1), .item (.number 2)] ∧
      Indistinct .overCalls (after (.table 0 (.groupBy ["kind"]))) refreshed ∧
      after (.askTable 0 .roots) = refreshed ∧
      rows 0 opened = .rows [.group outer, .item (.number 1), .item (.number 2)] := by
  intro s after recipe plain made grouped refreshed opened rows outer
  have hs : Reaches AnyStep ⟨start _, []⟩ ⟨s, []⟩ := reaches_runAll_ofStore _ _ 0 _
  have hquiet : s.Quiet := quiet_of_isEmpty rfl
  obtain ⟨t, ht, hopen, hexpand, hproperties, hstale⟩ : ∃ t, s.table? 0 = some t ∧
      s.isOpen 0 = true ∧ t.settings.expandOnGrouping = false ∧ t.properties = ["kind"] ∧
      t.stale = true := ⟨_, rfl, rfl, rfl, rfl, rfl⟩
  obtain ⟨hways, hpending⟩ := ways_to_group_agree s 0
  obtain ⟨hrefresh, hask⟩ := hpending _ _ hs hquiet 0 t ht hopen hexpand
  rw [hproperties] at hrefresh
  exact ⟨hways ⟨["kind", "kind"], true, true⟩ recipe plain rfl rfl,
    Answer.eq_rows (by decide +kernel), hrefresh, hask hstale .roots trivial,
    Answer.eq_rows (by decide +kernel)⟩

end Moment

end GroupedRows
