import GroupedRows.Proofs.Session.NoLostChange
import GroupedRows.Proofs.Session.Regrouping
import GroupedRows.Proofs.Session.SourceCalls

/-!
# Changes that cancel out

A change of the source only makes a table stale, and nothing is rebuilt before the table
is used again. So whatever the source has been in between, a table finds the tree that it
had if the items are in the same order again and have the same values, and then all groups
that were open are still there.
-/

namespace GroupedRows

open Call Session

/-- Stores have the same tree if they have the same items in the same order, with the same values of
the properties grouped by. -/
theorem ItemStore.tree_congr {store store' : ItemStore} {properties : List String}
    (hids : store'.ids = store.ids)
    (hvalues : ∀ id ∈ store.ids, ∀ p ∈ properties, store'.value? id p = store.value? id p) :
    store'.tree properties = store.tree properties := by
  unfold tree
  rw [hids]
  exact GroupTree.build_congr fun id hid => List.map_congr_left fun p hp => by
    rw [hvalues id hid p hp]

/-- A live table that is not stale, and is owed no notice, has the tree of the present items. -/
theorem Moment.NothingLost.tree_eq {s : Session} (h : NothingLost [] s) {c : TableId}
    {e : TableEntry} (he : s.tables[c]? = some e) (hlive : e.IsLive)
    (hstale : e.table.stale = false) :
    e.table.tree = s.source.tree e.table.properties := by
  rcases h.current c e he hlive with ⟨u, hu, _⟩ | hnow | hnow
  · exact absurd hu List.not_mem_nil
  · exact absurd (hstale.symm.trans hnow) Bool.false_ne_true
  · exact hnow

/-- The table shows the same groups by the same settings; it may have become stale, or have other
receivers. -/
structure Table.ArrangedAs (t' t : Table) : Prop where
  settings : t'.settings = t.settings
  arrangement : t'.arrangement = t.arrangement

/-- What a table has found once it is used again. -/
structure Table.Finds (t' : Table) (source : Source) (tree : GroupTree) (open? : Expansion) :
    Prop where
  coherent : t'.arrangement.Coherent
  tree : (t'.synced source).tree = tree
  expansion : (t'.synced source).arrangement.expansion = open?

namespace Table.ArrangedAs

variable {t t' t'' : Table} {source : Source}

theorem refl (t : Table) : t.ArrangedAs t := ⟨rfl, rfl⟩

/-- Of three tables the first is arranged as the last if each is arranged as the next. -/
theorem trans (h : t''.ArrangedAs t') (h' : t'.ArrangedAs t) : t''.ArrangedAs t :=
  ⟨h.settings.trans h'.settings, h.arrangement.trans h'.arrangement⟩

/-- A tree that has all open groups leaves them open. -/
theorem rebuilt_eq (h : t'.ArrangedAs t) (hcoherent : t.arrangement.Coherent)
    (hrestore : t.settings.restoreExpansion = true) (hsame : source.tree t.properties = t.tree) :
    (t'.rebuilt source t'.properties false).tree = t.tree ∧
      (t'.rebuilt source t'.properties false).arrangement.expansion = t.arrangement.expansion := by
  have hproperties : t'.properties = t.properties :=
    congrArg (fun a : Arrangement => a.tree.properties) h.arrangement
  have htree : source.tree t'.properties = t.tree := hproperties ▸ hsame
  refine ⟨htree, ?_⟩
  change t'.arrangement.carried (source.tree t'.properties) t'.settings.restoreExpansion false = _
  rw [h.settings, hrestore, h.arrangement, htree]
  exact Expansion.restrict_eq_self (htree ▸ GroupTree.isBuilt_build _ _ _)
    hcoherent.contains_of_open

/-- Over a source that gives the old tree again, the table finds what it had. -/
theorem finds (h : t'.ArrangedAs t) (hcoherent : t.arrangement.Coherent)
    (hrestore : t.settings.restoreExpansion = true) (hsame : source.tree t.properties = t.tree) :
    t'.Finds source t.tree t.arrangement.expansion := by
  have hcoherent' : t'.arrangement.Coherent := h.arrangement ▸ hcoherent
  by_cases hstale : t'.stale = true
  · obtain ⟨htree, hexpansion⟩ := h.rebuilt_eq hcoherent hrestore hsame
    have hsynced : t'.synced source = t'.rebuilt source t'.properties false := if_pos hstale
    exact ⟨hcoherent', hsynced ▸ htree, hsynced ▸ hexpansion⟩
  · have hsynced : t'.synced source = t' := if_neg hstale
    have harrangement : (t'.synced source).arrangement = t.arrangement :=
      (congrArg Table.arrangement hsynced).trans h.arrangement
    exact ⟨hcoherent', congrArg Arrangement.tree harrangement,
      congrArg Arrangement.expansion harrangement⟩

/-- So it is when the table has been refreshed. -/
theorem finds_rebuilt (h : t'.ArrangedAs t) (hcoherent : t.arrangement.Coherent)
    (hrestore : t.settings.restoreExpansion = true) (hsame : source.tree t.properties = t.tree) :
    (t'.rebuilt source t'.properties false).Finds source t.tree t.arrangement.expansion := by
  obtain ⟨htree, hexpansion⟩ := h.rebuilt_eq hcoherent hrestore hsame
  exact ⟨t'.coherent_rebuilt source _ _, htree, hexpansion⟩

end Table.ArrangedAs

/-! ## Questions -/

/-- The question is about groups, about which of them are open, or about the visible rows. -/
def TableQuery.AboutGroups : TableQuery → Prop
  | .ownItems _ | .items _ | .settings | .sourceSize | .walk => False
  | _ => True

namespace Session.Calm

variable {s s' : Session} {c : TableId} {t t' : Table} {tree : GroupTree} {open? : Expansion}

/-- The outline is drawn of the synced table. -/
theorem answer_outline (h : s.Calm c t) (depth : Nat) (options : Outline.Options) :
    ((calling c (outline c options)).run (Session.emit depth) s).1 =
      .text (Outline.text options (t.synced s.source).tree
        (t.synced s.source).arrangement.expansion) := by
  obtain ⟨_, hsynced⟩ := (h.enter.deaf.layoutIgnored h.enter.quiet depth c).sync h.enter.table
  refine (h.answer_calling _ _).trans ?_
  simp only [outline, run_bind, run_read, hsynced, run_pure]
  rfl

/-- Items are found in the present source, by the identifiers in the tree of the synced table. -/
theorem answer_askItems (h : s.Calm c t) (depth : Nat) (ids : GroupTree → List ItemId) :
    ((calling c (askItems c ids)).run (Session.emit depth) s).1 =
      .items (s.source.itemsOf (ids (t.synced s.source).tree)) :=
  (h.answer_calling _ _).trans
    ((h.enter.deaf.layoutIgnored h.enter.quiet depth c).askItems h.enter.table ids)

/-- Tables that find the same groups, and the same of them open, answer alike. -/
theorem answer_eq (h : s.Calm c t) (h' : s'.Calm c t') (hfinds : t.Finds s.source tree open?)
    (hfinds' : t'.Finds s'.source tree open?)
    (hactive : s'.source.isActive = s.source.isActive) (depth : Nat) {q : TableQuery}
    (hq : q.AboutGroups) :
    ((runStep (.askTable c q)).run (Session.emit depth) s').1 =
      ((runStep (.askTable c q)).run (Session.emit depth) s).1 := by
  have htree : ∀ answer : GroupTree → Answer,
      ((calling c (askTree c answer)).run (Session.emit depth) s').1 =
        ((calling c (askTree c answer)).run (Session.emit depth) s).1 := by
    intro answer
    rw [h.answer_askTree, h'.answer_askTree, hfinds.tree, hfinds'.tree]
  have hrows : ∀ answer : Snapshot → Answer,
      ((calling c (askRows c answer)).run (Session.emit depth) s').1 =
        ((calling c (askRows c answer)).run (Session.emit depth) s).1 := by
    intro answer
    rw [h.answer_askRows, h'.answer_askRows]
    exact congrArg answer (Table.shown_eq_of_synced hfinds.coherent hfinds'.coherent hactive
      (hfinds'.tree.trans hfinds.tree.symm) (hfinds'.expansion.trans hfinds.expansion.symm))
  have hconstant : ∀ answer : Answer,
      ((calling c (pure answer)).run (Session.emit depth) s').1 =
        ((calling c (pure answer)).run (Session.emit depth) s).1 := by
    intro answer
    rw [h.answer_calling, h'.answer_calling]
    rfl
  change ((calling c (askTable c q)).run (Session.emit depth) s').1 =
    ((calling c (askTable c q)).run (Session.emit depth) s).1
  by_cases habout : q.AboutRows
  · rw [askTable_eq_askRows habout]
    exact hrows _
  cases q with
  | ownItems | items | settings | sourceSize | walk => exact hq.elim
  | rows | size | first | last | next | previous | isFirst | isLast | positionOf | rowAt =>
    exact absurd trivial habout
  | isGroup r | groupOf r =>
    cases r with
    | item id => exact hconstant _
    | group k => simp only [askTable]; exact htree _
  | isExpanded k =>
    have hexpanded := h.answer_isExpanded hfinds.coherent depth k
    have hexpanded' := h'.answer_isExpanded hfinds'.coherent depth k
    rw [hfinds.expansion] at hexpanded
    rw [hfinds'.expansion] at hexpanded'
    exact hexpanded'.trans hexpanded.symm
  | outline options =>
    simp only [askTable]
    rw [h.answer_outline, h'.answer_outline, hfinds.tree, hfinds'.tree, hfinds.expansion,
      hfinds'.expansion]
  | hasGroups | properties | roots | contains | hasChildren | children | property | value | itemIds
  | itemCount | leafOf | pathOf => simp only [askTable]; exact htree _

/-! ## What happens in between -/

/-- Whoever hears of anything may make a table stale, and does nothing else. -/
theorem hear (h : s.Calm c t) (depth : Nat) (n : Notice) :
    ∃ t', (Session.emit depth n s).Calm c t' ∧ t'.ArrangedAs t := by
  have hheard := heard_emit depth n h.quiet
  obtain ⟨e, he, hopen, rfl⟩ := h.entry
  have hentry := hheard.tables c
  rw [he, Option.map_some] at hentry
  refine ⟨_, ⟨hheard.quiet, fun d e' he' => ?_, _, hentry, ?_, rfl⟩, ?_⟩
  · rw [hheard.tables] at he'
    obtain ⟨e₀, he₀, rfl⟩ := Option.map_eq_some_iff.1 he'
    have hdeaf := h.deaf d e₀ he₀
    split <;> exact hdeaf
  · split <;> exact hopen
  · split
    · exact ⟨rfl, rfl⟩
    · exact .refl e.table

end Session.Calm

namespace Session

/-- Where nobody acts, the call leaves what the table shows as it is. -/
def LeavesArranged {α : Type} (depth : Nat) (c : TableId) (m : Call α) : Prop :=
  ∀ s t, s.Calm c t → ∃ t', (m.run (emit depth) s).2.Calm c t' ∧ t'.ArrangedAs t

/-- So does a change of what is neither a table nor a listener. -/
theorem leavesArranged_change (depth : Nat) (c : TableId) {f : Session → Session}
    (hf : ∀ s, (f s).tables = s.tables ∧ (f s).listeners = s.listeners) :
    LeavesArranged depth c (change f) := by
  intro s t h
  refine ⟨t, ⟨?_, ?_, ?_⟩, .refl t⟩
  · exact fun l hl => h.quiet l ((hf s).2 ▸ hl)
  · exact fun d e he => h.deaf d e ((hf s).1 ▸ he)
  · obtain ⟨e, he, hopen, ht⟩ := h.entry
    exact ⟨e, (hf s).1 ▸ he, hopen, ht⟩

/-- So do the calls of which steps on the source are made. -/
theorem sourcing_leavesArranged (depth : Nat) (c : TableId) :
    Sourcing fun {_} m => LeavesArranged depth c m where
  pure _ s t h := ⟨t, h, .refl t⟩
  bind hm hf s t h := by
    obtain ⟨t', h', hfirst⟩ := hm s t h
    obtain ⟨t'', h'', hrest⟩ := hf _ _ t' h'
    rw [run_bind]
    exact ⟨t'', h'', hrest.trans hfirst⟩
  read _ hf s := hf s s
  setStore _ := leavesArranged_change depth c fun _ => ⟨rfl, rfl⟩
  setBinding _ := leavesArranged_change depth c fun _ => ⟨rfl, rfl⟩
  write _ := leavesArranged_change depth c fun _ => ⟨rfl, rfl⟩
  send n _ s t h := h.hear depth n

variable {s : Session} {c : TableId} {t : Table} {depth : Nat}

/-- A call on an open table that changes only the table leaves no other trace. -/
theorem leave_modifyTable_enter (hopen : s.isOpen c = true) (f : Table → Table) :
    ((s.enter c).modifyTable c f).leave c = s.modifyTable c f := by
  have htables : (((s.tables.modify c fun e => { e with calls := e.calls + 1 }).modify c
      fun e => { e with table := f e.table }).modify c fun e => { e with calls := e.calls - 1 }) =
        s.tables.modify c fun e => { e with table := f e.table } := by
    rw [List.modify_modify_eq, List.modify_modify_eq]
    rfl
  have hsame : ((s.enter c).modifyTable c f).modifyEntry c
      (fun e => { e with calls := e.calls - 1 }) = s.modifyTable c f :=
    congrArg (fun tables => { s with tables }) htables
  have hopen' : (s.modifyTable c f).isOpen c = true := by
    change (s.tables.modify c _)[c]?.any TableEntry.isOpen = true
    rw [List.getElem?_modify_eq]
    unfold isOpen at hopen
    cases he : s.tables[c]? with
    | none => rwa [he] at hopen
    | some e => rwa [he] at hopen
  unfold leave
  rw [hsame, release_of_isOpen hopen']

/-- A call on an open table that does nothing leaves no trace. -/
theorem leave_enter (h : s.isOpen c = true) : (s.enter c).leave c = s := by
  have hunchanged : ∀ s : Session, s.modifyTable c id = s := fun s =>
    congrArg (fun tables => { s with tables }) (List.modify_id c s.tables)
  have hleft := leave_modifyTable_enter h id
  rwa [hunchanged, hunchanged] at hleft

/-- A call on a table that at most holds rows does no more than that. -/
theorem run_calling_inactive {call : Call Answer}
    (hcall : ∀ s : Session, s.source.isActive = false →
      ∃ held, (call.run (emit depth) s).2 = { s with held })
    (hactive : s.source.isActive = false) :
    ∃ held, ((calling c call).run (emit depth) s).2 = { s with held } := by
  cases hopen : s.isOpen c with
  | true =>
    obtain ⟨held, hheld⟩ := hcall (s.enter c) hactive
    simp only [calling, run_bind, run_read, hopen, if_true, run_change, run_pure, hheld]
    exact ⟨held, leave_enter (s := { s with held }) hopen⟩
  | false =>
    simp only [calling, run_bind, run_read, hopen, Bool.false_eq_true, if_false, run_pure]
    exact ⟨s.held, rfl⟩

end Session

/-- In this session the step changes the source, asks it, or only looks at the rows of a table while
the source is inactive. -/
def Step.Aside (s : Session) : Step → Prop
  | .source _ | .askSource _ | .held _ => True
  | .askTable _ q => q.AboutRows ∧ s.source.isActive = false
  | .hold _ _ => s.source.isActive = false
  | _ => False

namespace Session

/-- Each of the steps leaves the tables aside when it is its turn. -/
def AllAside (depth : Nat) : List Step → Session → Prop
  | [], _ => True
  | step :: rest, s => step.Aside s ∧ AllAside depth rest (runTop depth step s).2

variable {s : Session} {c : TableId} {t : Table} {depth : Nat}

/-- A look at rows that an inactive source hides leaves all as it was, but for rows that are
held. -/
theorem run_look_inactive (depth : Nat) {step : Step} (hstep : step.Aside s)
    (hlook : ∀ source, step ≠ .source source) :
    ∃ held, ((runStep step).run (emit depth) s).2 = { s with held } := by
  cases step with
  | source source => exact absurd rfl (hlook source)
  | askSource | held => exact ⟨s.held, rfl⟩
  | askTable d q =>
    refine run_calling_inactive (fun s hs => ⟨s.held, ?_⟩) hstep.2
    rw [askTable_eq_askRows hstep.1]
    simp only [askRows, run_bind, run_pure, run_visible_of_inactive hs]
  | hold d name =>
    refine run_calling_inactive (fun s hs => ⟨s.held.insert name .empty, ?_⟩) hstep
    simp only [hold, run_bind, run_pure, run_change, run_visible_of_inactive hs]
  | openTable | closeTable | table | block | connections | listen | unlisten => exact hstep.elim

/-- A step that leaves the tables aside leaves what they show as it is. -/
theorem Calm.aside (h : s.Calm c t) {step : Step} (hstep : step.Aside s) :
    ∃ t', (runTop depth step s).2.Calm c t' ∧ t'.ArrangedAs t := by
  by_cases hlook : ∀ source, step ≠ .source source
  · obtain ⟨held, hheld⟩ := run_look_inactive depth hstep hlook
    have hcalm : ((runStep step).run (Session.emit depth) s).2.Calm c t :=
      hheld ▸ ⟨h.quiet, h.deaf, h.entry⟩
    exact ⟨t, ⟨hcalm.quiet, hcalm.deaf, hcalm.entry⟩, .refl t⟩
  · obtain ⟨source, hsource⟩ := Classical.not_forall.1 hlook
    obtain rfl := Classical.not_not.1 hsource
    obtain ⟨t', h', harranged⟩ := (sourcing_leavesArranged depth c).runSource source s t h
    exact ⟨t', ⟨h'.quiet, h'.deaf, h'.entry⟩, harranged⟩

/-- So do any number of them. -/
theorem Calm.allAside (h : s.Calm c t) {steps : List Step} (hsteps : s.AllAside depth steps) :
    ∃ t', (runAll depth steps s).2.Calm c t' ∧ t'.ArrangedAs t := by
  induction steps generalizing s t with
  | nil => exact ⟨t, h, .refl t⟩
  | cons step rest ih =>
    obtain ⟨t', h', hfirst⟩ := h.aside hsteps.1
    obtain ⟨t'', h'', hrest⟩ := ih h' hsteps.2
    exact ⟨t'', h'', hrest.trans hfirst⟩

/-- Refreshing a table rebuilds it over the present items. -/
theorem Calm.refresh (h : s.Calm c t) (depth : Nat) :
    let s' := ((runStep (.table c .refresh)).run (Session.emit depth) s).2
    s'.source = s.source ∧ s'.Calm c (t.rebuilt s.source t.properties false) := by
  intro s'
  have hrebuilt := h.enter.rebuild t.properties false
  obtain ⟨hsource₁, hlayout⟩ := hrebuilt.emit depth (n := .layout c) rfl
  obtain ⟨hsource₂, hleft⟩ := hlayout.leave
  have hs' : s' = (Session.emit depth (.layout c)
      ((s.enter c).rebuild c t.properties false)).leave c := by
    simp only [s', runStep, calling, runTable, Session.refresh, run_bind, run_read, run_change,
      run_send, run_pure, h.isOpen, if_true, h.enter.table]
  rw [hs']
  refine ⟨?_, hleft⟩
  rw [hsource₂, hsource₁, source_rebuild]
  rfl

end Session

namespace Moment

/-- Take a session at rest in which nobody acts, whatever fair code outside has done before, and in
it an open table that keeps open groups, is not stale and has an active source. Then the source is
changed in any way, and while it is inactive, tables are asked for their rows. If it is active at
last, has the same items in the same order and they have the same values of the properties grouped
by, then the table tells the same groups, the same of them open and the same rows as before, and so
it does when it is refreshed after the changes, or without any. The items of a group are the present
ones with the same identifiers. -/
theorem cancelled_changes_are_invisible {items : List Item} {s : Session}
    (hs : Reaches Fair ⟨start items, []⟩ ⟨s, []⟩) (hquiet : s.Quiet) {c : TableId} {t : Table}
    (ht : s.table? c = some t) (hopen : s.isOpen c = true)
    (hrestore : t.settings.restoreExpansion = true) (hstale : t.stale = false)
    (hactive : s.source.isActive = true) {depth : Nat} {changes : List Step}
    (haside : s.AllAside depth changes) :
    let s' := (runAll depth changes s).2
    s'.source.isActive = true → s'.source.store.ids = s.source.store.ids →
    (∀ id ∈ s.source.store.ids, ∀ p ∈ t.properties,
      s'.source.store.value? id p = s.source.store.value? id p) →
    let ask (s : Session) (q : TableQuery) := ((runStep (.askTable c q)).run (emit depth) s).1
    let refreshed := ((runStep (.table c .refresh)).run (emit depth) s').2
    (∀ q, q.AboutGroups → ask s' q = ask s q ∧ ask refreshed q = ask s q) ∧
    ∀ k, ask s' (.items k) = .items (s'.source.itemsOf (t.tree.allItems k)) ∧
      ask s' (.ownItems k) = .items (s'.source.itemsOf (t.tree.ownItems k)) := by
  intro s' hactive' hids hvalues ask refreshed
  obtain ⟨e, he, rfl⟩ := table?_eq_some_iff.1 ht
  have hlive : e.isOpen = true := by simpa [isOpen, he] using hopen
  have hcalm : s.Calm c e.table := ⟨hquiet, (safe_deaf Fair).holds (deaf_ofStore _ _) hs, e, he,
    hlive, rfl⟩
  have hcoherent : e.table.arrangement.Coherent :=
    (safe_allCoherent Fair).holds (eachArrangement_ofStore _ _) hs c e he
  have hpresent : e.table.tree = s.source.tree e.table.properties :=
    (safe_nothingLost.holds (nothingLost_ofStore _ _) hs).tree_eq he (.inl hlive) hstale
  have hsame : s'.source.tree e.table.properties = e.table.tree :=
    (ItemStore.tree_congr hids hvalues).trans hpresent.symm
  obtain ⟨t', hcalm', harranged⟩ := hcalm.allAside haside
  obtain ⟨hsource, hrefreshed⟩ := hcalm'.refresh depth
  have hfinds := (Table.ArrangedAs.refl e.table).finds hcoherent hrestore hpresent.symm
  have hfinds' := harranged.finds hcoherent hrestore hsame
  have hfindsRefreshed := harranged.finds_rebuilt hcoherent hrestore hsame
  refine ⟨fun q hq => ⟨?_, ?_⟩, fun k => ⟨?_, ?_⟩⟩
  · exact hcalm.answer_eq hcalm' hfinds hfinds' (hactive'.trans hactive.symm) depth hq
  · exact hcalm.answer_eq hrefreshed hfinds (hsource.symm ▸ hfindsRefreshed)
      ((congrArg Source.isActive hsource).trans (hactive'.trans hactive.symm)) depth hq
  · refine (hcalm'.answer_askItems depth fun t => t.allItems k).trans ?_
    rw [hfinds'.tree]
  · refine (hcalm'.answer_askItems depth fun t => t.ownItems k).trans ?_
    rw [hfinds'.tree]

/-- All items go while the source is inactive, the table is looked at, and the item comes back with
another value of a property that it is not grouped by: its group is open as before. -/
theorem open_group_survives_empty_source :
    let s := (runAll 0 [
      .openTable (.changes [.properties ["kind"]]),
      .table 0 .expandAll] (start [⟨.number 1, .empty⟩])).2
    let changes : List Step := [
      .source (.bind .inactive), .source .clear, .askTable 0 .rows,
      .source (.push ⟨.number 1, OrderedMap.empty.insertAll [("size", .absent)]⟩),
      .source (.bind .active)]
    let s' := (runAll 0 changes s).2
    let ask (s : Session) (q : TableQuery) := ((runStep (.askTable 0 q)).run (emit 0) s).1
    s'.table? 0 ≠ s.table? 0 ∧
      ask s' (.isExpanded (.root "kind" .absent)) = .flag true ∧ ask s' .rows = ask s .rows := by
  intro s changes s' ask
  have hs : Reaches Fair ⟨start _, []⟩ ⟨s, []⟩ :=
    reaches_runAll playable_alwaysFair 0 (allFair_iff.1 rfl) fun l hl => absurd hl List.not_mem_nil
  have hquiet : s.Quiet := fun l hl => absurd hl List.not_mem_nil
  have haside : s.AllAside 0 changes :=
    ⟨trivial, trivial, ⟨trivial, rfl⟩, trivial, trivial, trivial⟩
  obtain ⟨t, ht, hrestore, hstale, hproperties⟩ : ∃ t, s.table? 0 = some t ∧
      t.settings.restoreExpansion = true ∧ t.stale = false ∧ t.properties = ["kind"] :=
    ⟨_, rfl, rfl, rfl, rfl⟩
  have hids : s.source.store.ids = [.number 1] := rfl
  have hvalues : ∀ id ∈ s.source.store.ids, ∀ p ∈ t.properties,
      (runAll 0 changes s).2.source.store.value? id p = s.source.store.value? id p := by
    rw [hids, hproperties]
    simp only [List.mem_singleton, forall_eq]
    decide +kernel +zetaReduce
  have hsame := (cancelled_changes_are_invisible hs hquiet ht rfl hrestore hstale rfl haside
    (by decide +kernel +zetaReduce) (by decide +kernel +zetaReduce) hvalues).1
  have hstale' : (s'.table? 0).map Table.stale = some true := by decide +kernel +zetaReduce
  have hopen : ask s (.isExpanded (.root "kind" .absent)) = .flag true := rfl
  refine ⟨fun h => ?_, (hsame (.isExpanded _) trivial).1.trans hopen, (hsame .rows trivial).1⟩
  rw [h, ht, Option.map_some, hstale] at hstale'
  exact absurd hstale' (by decide)

end Moment

end GroupedRows
