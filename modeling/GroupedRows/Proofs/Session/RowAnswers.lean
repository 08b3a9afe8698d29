import GroupedRows.Proofs.Navigation
import GroupedRows.Proofs.Session.UnmovedRows
import GroupedRows.Proofs.VisibleRows

/-!
# Answers about rows agree

In a tidy session every table shows a snapshot in which no row stands twice, whatever
change it has still to apply. All questions about rows are answered by this snapshot, and
asking does not move it, so the answers agree with each other.
-/

namespace GroupedRows

open Call Session

/-- The rows of a tree are a snapshot in which no row stands twice if the tree has no item twice. -/
theorem GroupTree.IsBuilt.nodup_visibleRows {t : GroupTree} (h : t.IsBuilt)
    (hitems : t.items.Nodup) (e : Expansion) : (Snapshot.visibleRows t e).Nodup := by
  obtain ⟨items, lookup, hbuilt⟩ := h
  rw [hbuilt, items_build] at hitems
  rw [hbuilt]
  exact nodup_visibleRows_build hitems e

namespace Session

variable {s s' : Session} {c : TableId} {t : Table} {depth : Nat}

/-- What a table of a tidy session shows are rows of which none stands twice. -/
theorem Tidy.shown_eq_ofRows (h : s.Tidy) (ht : s.table? c = some t) :
    ∃ rows : List Row, rows.Nodup ∧ t.shown s.source = .ofRows rows := by
  obtain ⟨e, he, rfl⟩ := table?_eq_some_iff.1 ht
  unfold Table.shown
  split
  · have hcoherent := Table.coherent_synced (h.coherent c e he) s.source
    have hdistinct : (e.table.synced s.source).arrangement.tree.items.Nodup := by
      unfold Table.synced
      split
      · exact (stable_distinct h.indexed).regroup _ _ _ _
      · exact h.distinct c e he
    exact ⟨_, hcoherent.built.nodup_visibleRows hdistinct _, hcoherent.look_eq⟩
  · exact ⟨[], List.nodup_nil, rfl⟩

/-- An open table answers a question about rows by what it shows. -/
theorem Tidy.answer_eq_reply (h : s.Tidy) (hopen : s.isOpen c = true) (ht : s.table? c = some t)
    {q : TableQuery} (hq : q.AboutRows) :
    ((Session.runStep (.askTable c q)).run (Session.emit depth) s).1 =
      (t.shown s.source).reply q := by
  have hentered : (s.enter c).Tidy := h.alters (.enter c hopen)
  have htable : (s.enter c).table? c = some t := by
    obtain ⟨e, he, rfl⟩ := table?_eq_some_iff.1 ht
    exact table?_eq_some_iff.2 ⟨_, getElem?_modifyEntry he _, rfl⟩
  have hvisible := (hentered.layoutIgnored depth c).visible htable
  have hasks : Asks depth (askTable c q) := asking_asks.askTable asks_settings q c
  refine (h.run_calling hasks hopen).1.trans ?_
  rw [askTable_eq_askRows hq]
  simp only [askRows, run_bind, run_pure]
  exact congrArg (Snapshot.reply · q) hvisible

/-- Let steps of any kind have been made that keep identifiers apart, with listeners that do
nothing: whatever the tables are grouped by, whichever groups are open, whatever changes they have
still to apply, also if they missed some, and whatever the binding is. Then there is a list of rows
without repetitions by which an open table answers all questions about rows, as long as only
questions are asked. -/
theorem navigation_agrees {items : List Item} {depth : Nat} {steps : List Step}
    (hsteps : ∀ step ∈ steps, step.Tame) {c : TableId}
    (hopen : (runAll depth steps (start items)).2.isOpen c = true) :
    ∃ rows, ∀ questions : List Step, (∀ step ∈ questions, step.Asks) →
      let s := (runAll depth questions (runAll depth steps (start items)).2).2
      Navigates (fun q => ((runStep (.askTable c q)).run (emit depth) s).1) rows := by
  have htidy := (tidy_start items).runAll depth hsteps
  obtain ⟨t, ht⟩ := exists_table_of_isOpen hopen
  obtain ⟨rows, hnodup, hrows⟩ := htidy.shown_eq_ofRows ht
  refine ⟨rows, fun questions hquestions => ?_⟩
  intro s
  have hs : s.Tidy := htidy.runAll depth fun step hm => (hquestions step hm).tame
  have hmoved := htidy.unmoved_runAll depth hquestions
  have hopen' : s.isOpen c = true := (hmoved.isOpen_eq c).trans hopen
  obtain ⟨t', ht'⟩ := exists_table_of_isOpen hopen'
  have hshown : t'.shown s.source = .ofRows rows := (hmoved.shown_eq ht ht').trans hrows
  refine (Snapshot.navigates_reply hnodup).congr fun q hq => ?_
  rw [hs.answer_eq_reply hopen' ht' hq, hshown]

/-- A table that misses the removal of an item goes on to show it, and its answers still agree. -/
theorem navigation_agrees_after_missed_change :
    let k := GroupPath.root "kind" .absent
    let steps : List Step := [
      .openTable (.changes [.properties ["kind"]]),
      .table 0 .expandAll,
      .source (.push ⟨.number 2, .empty⟩),
      .table 0 (.expand k),
      .block .items true,
      .source (.remove (.number 1))]
    let s := (runAll 0 steps (start [⟨.number 1, .empty⟩])).2
    (∀ step ∈ steps, step.Tame) ∧ s.isOpen 0 = true ∧ s.source.store.ids = [.number 2] ∧
      Navigates (fun q => ((runStep (.askTable 0 q)).run (emit 0) s).1)
        [.group k, .item (.number 1), .item (.number 2)] := by
  intro k steps s
  have hsteps : ∀ step ∈ steps, step.Tame := by simp [steps, Step.Tame]
  have hopen : s.isOpen 0 = true := rfl
  obtain ⟨rows, hrows⟩ := navigation_agrees hsteps hopen
  have hnavigates := hrows [] fun step hm => absurd hm List.not_mem_nil
  have hlisted : Answer.rows rows = .rows [.group k, .item (.number 1), .item (.number 2)] :=
    hnavigates.listed.symm
  obtain rfl := Answer.rows.inj hlisted
  exact ⟨hsteps, hopen, rfl, hnavigates⟩

end Session

end GroupedRows
