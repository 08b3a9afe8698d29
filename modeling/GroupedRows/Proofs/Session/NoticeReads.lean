import GroupedRows.Proofs.Session.Coherence
import GroupedRows.Proofs.Session.NoLostChange
import GroupedRows.Proofs.Session.Reading

/-!
# Reads from inside a notice

While a change of the items is being announced, a table that has been called reads the
changed items. A table that is still to be called does not know of the change and reads
as before, so what a listener reads depends on whether the table was connected to the
signal in front of it.
-/

namespace GroupedRows.Moment

open Session

/-- The notice of changed items that went out last of those under way. -/
def latest (us : UnderWay) : UnderWay := (us.find? (·.1.channel = .items)).toList

variable {us : UnderWay} {s : Session} {n : Notice} {pending : List Receiver}

/-- A notice of changed items that goes out is the latest. -/
theorem latest_cons_of_items (hn : n.channel = .items) :
    latest ((n, pending) :: us) = [(n, pending)] := by
  simp [latest, hn]

/-- Any other notice that goes out leaves the latest one of changed items. -/
theorem latest_cons_of_ne (hn : n.channel ≠ .items) : latest ((n, pending) :: us) = latest us := by
  simp [latest, hn]

/-- Only notices of changed items are owed. -/
theorem Owed.of_channel_ne (hn : n.channel ≠ .items) {c : TableId}
    (h : Owed ((n, pending) :: us) c) : Owed us c := by
  obtain ⟨u, hu, hitems, hc⟩ := h
  rcases List.mem_cons.1 hu with rfl | hu
  · exact absurd hitems hn
  · exact ⟨u, hu, hitems, hc⟩

/-- The notice of the latest change is the only one that a table may need to wait for: whoever has
been called since is stale or current. -/
theorem safe_latest : Safe Fair fun us s => NothingLost (latest us) s := by
  refine .of_alterations (fun _ _ _ h hs => h.alters hs) (fun us s n h => ?_)
    (fun us s change store h _ => ?_) (fun _ _ _ _ _ _ h => h.congr rfl rfl rfl)
    (fun us n r pending s h => ?_) (fun us n s h => ?_)
  · dsimp only [Fit]
    by_cases hn : n.channel = .items
    · rw [latest_cons_of_items hn]
      exact h.announce rfl rfl hn []
    · rw [latest_cons_of_ne hn]
      exact h.write _
  · dsimp only [Fit]
    rw [latest_cons_of_items (n := .items change) rfl]
    exact h.exchange change store []
  · by_cases hn : n.channel = .items
    · rw [latest_cons_of_items hn] at h ⊢
      exact h.receive
    · rw [latest_cons_of_ne hn] at h ⊢
      have hmore : NothingLost ((n, r :: pending) :: latest us) s := h.mono fun _ ho => ho.cons _
      exact hmore.receive.mono fun _ => Owed.of_channel_ne hn
  · by_cases hn : n.channel = .items
    · rw [latest_cons_of_items hn] at h
      exact h.endEmission.mono fun _ ⟨_, hu, _⟩ => absurd hu List.not_mem_nil
    · rw [latest_cons_of_ne hn] at h
      exact h.write _

/-- A table that is not to be called for the latest change any more is stale or current. -/
theorem stale_or_current_of_called {items : List Item} {m : Moment}
    (h : Reaches Fair ⟨start items, []⟩ m) {c : TableId}
    (hcalled : ∀ w, m.waiting.find? (·.notice.channel = .items) = some w →
      Receiver.table c ∉ w.pending) {e : TableEntry}
    (he : m.session.tables[c]? = some e) (hl : e.IsLive) :
    e.table.stale = true ∨ e.table.tree = m.session.source.tree e.table.properties := by
  have hm := safe_latest.holds (nothingLost_ofStore _ _) h
  refine (hm.current c e he hl).resolve_left ?_
  rintro ⟨u, hu, _, hc⟩
  unfold latest underWay at hu
  rw [List.find?_map, Option.mem_toList, Option.map_eq_some_iff] at hu
  obtain ⟨w, hw, rfl⟩ := hu
  exact hcalled w hw hc

/-- From inside a notice of changed items, whatever calls listeners have nested in it, a table that
has been called for the latest change reads the present items: questions about groups are answered
in the tree of the present items, items are the present ones, and the visible rows of an active
source are rows of this tree. The table is to be connected, the signal is not to be blocked, and
those who hear of the new layout are not to interfere. -/
theorem reads_of_called_table_are_present {items : List Item} {m : Moment}
    (h : Reaches Fair ⟨start items, []⟩ m) {c : TableId}
    (hcalled : ∀ w, m.waiting.find? (·.notice.channel = .items) = some w →
      Receiver.table c ∉ w.pending) {e : TableEntry}
    (he : m.session.tables[c]? = some e) (hl : e.IsLive) {emit : Emit}
    (hemit : LayoutIgnored emit m.session c) :
    let present := m.session.source.tree e.table.properties
    (∀ answer, ((askTree c answer).run emit m.session).1 = answer present) ∧
    (∀ ids, ((askItems c ids).run emit m.session).1 =
      .items (m.session.source.itemsOf (ids present))) ∧
    (m.session.source.isActive = true → ∀ answer,
      ((askRows c answer).run emit m.session).1 = answer
        (.flatten present (e.table.synced m.session.source).arrangement.expansion)) := by
  intro present
  have ht : m.session.table? c = some e.table := table?_eq_some_iff.2 ⟨e, he, rfl⟩
  have htree : (e.table.synced m.session.source).tree = present :=
    Table.tree_synced (stale_or_current_of_called h hcalled he hl)
  have hcoherent : m.session.AllCoherent :=
    (safe_allCoherent Fair).holds (eachArrangement_ofStore _ _) h
  refine ⟨fun answer => ?_, fun ids => ?_, fun hactive answer => ?_⟩
  · rw [hemit.askTree ht, htree]
  · rw [hemit.askItems ht, htree]
  · have hlook := (Table.coherent_synced (hcoherent c e he) m.session.source).look_eq
    simp only [askRows, Call.run_bind, Call.run_pure, hemit.visible ht, Table.shown, hactive,
      if_true, hlook]
    rw [← htree]
    rfl

/-- A listener that is connected behind the table reads an item that is just being announced. -/
theorem reads_of_called_table_show_pushed_item :
    let items : List Item := [⟨.number 1, .empty⟩]
    let s := (runAll 0 [
      .openTable (.changes [.properties ["kind"]]),
      .listen "reader" .items [] 1] (start items)).2
    let n := Notice.items (.added 1 1)
    let changed := (s.setStore (s.source.store.push ⟨.number 2, .empty⟩)).writeEntry
      (.itemsChanged (.added 1 1))
    let m : Moment := ⟨
      (((changed.beginEmission n).receive n .journal).receive n (.table 0)).receive n (.listener 0),
      [⟨n, [], true, fun s => .ended (.flag true) s⟩]⟩
    let count : GroupTree → Answer := fun t => .count (t.itemCount (.root "kind" .absent))
    Reaches Fair ⟨start items, []⟩ m ∧ LayoutIgnored (emit 0) m.session 0 ∧
      ((askTree 0 count).run (emit 0) m.session).1 = .count 2 := by
  intro items s n changed m count
  have hs : Reaches Fair ⟨start items, []⟩ ⟨s, []⟩ :=
    reaches_runAll playable_alwaysFair 0 (allFair_iff.1 rfl) fun l hl => absurd hl List.not_mem_nil
  have hpush : Moves Fair ⟨s, []⟩ _ :=
    .call ⟨s, []⟩ (.source (.push ⟨.number 2, .empty⟩)) isFree_nil trivial
  have hm : Reaches Fair ⟨start items, []⟩ m :=
    .tail (.tail (.tail (.tail hs hpush) (.receive _ _ _ _ _ _ _)) (.receive _ _ _ _ _ _ _))
      (.receive _ _ _ _ _ _ _)
  have hcalled : ∀ w, m.waiting.find? (·.notice.channel = .items) = some w →
      Receiver.table 0 ∉ w.pending := by
    intro w hw
    obtain rfl := Option.some.inj hw
    exact List.not_mem_nil
  have hignored : LayoutIgnored (emit 0) m.session 0 := by
    intro t ht
    obtain rfl := Option.some.inj ht
    exact ⟨rfl, rfl⟩
  obtain ⟨e, he, hl, hp⟩ : ∃ e, m.session.tables[0]? = some e ∧ e.IsLive ∧
      count (m.session.source.tree e.table.properties) = .count 2 := ⟨_, rfl, .inl rfl, rfl⟩
  have hreads := (reads_of_called_table_are_present hm hcalled he hl hignored).1 count
  exact ⟨hm, hignored, hreads.trans hp⟩

/-- A listener that is connected in front of the table finds two items in the source, and one item
in the table, while the second item is being announced. Afterwards the table has both. -/
theorem reader_in_front_of_table_misses_change :
    let steps : List Step := [
      .listen "reader" .items
        [.askSource .contents, .askTable 0 (.itemCount (.root "kind" .absent))] 1,
      .openTable (.changes [.properties ["kind"]]),
      .source (.push ⟨.number 2, .empty⟩),
      .askTable 0 (.itemCount (.root "kind" .absent))]
    (runAll 1 steps (start [⟨.number 1, .empty⟩])).1 = [
      (.done, []),
      (.count 0, []),
      (.flag true, [
        .noted (.items (.added 1 1)),
        .heard "reader" (.items (.added 1 1)),
        .acted "reader" (.askSource .contents) (.contents [.number 1, .number 2] 2 .active),
        .acted "reader" (.askTable 0 (.itemCount (.root "kind" .absent))) (.count 1)]),
      (.count 2, [.noted (.layout 0)])] := by
  intro steps
  rfl

end GroupedRows.Moment
