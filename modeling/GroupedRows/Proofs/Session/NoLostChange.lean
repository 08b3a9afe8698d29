import GroupedRows.Proofs.Session.Entries
import GroupedRows.Proofs.Session.ScriptMoves
import GroupedRows.Proofs.SlotTable

/-!
# No change of the items is lost

A table that does not show the present items knows that it is stale, or a notice of the
change is under way and will still reach it. So when no notice is under way, every table
is stale or shows the present items, however deep listeners have nested their calls.
The tables have to stay connected for this, and the signal must not be blocked.
-/

namespace GroupedRows

open Session

/-- The table is open, or a call on it has not returned yet. -/
def TableEntry.IsLive (e : TableEntry) : Prop := e.isOpen = true ∨ e.calls ≠ 0

namespace Moment

/-- What code outside may do: it neither exchanges items quietly nor blocks the signal of their
changes, and does not disconnect live tables from it. -/
def Fair (s : Session) : Step → Prop
  | .source (.loadQuietly _) => False
  | .block .items on => on = false
  | .unlisten name .items =>
    s.EachTable fun _ e => e.IsLive → s.names.get? name ≠ some e.table.itemsLink
  | _ => True

/-- A notice of changed items is under way and has not reached the table. -/
def Owed (us : UnderWay) (c : TableId) : Prop :=
  ∃ u ∈ us, u.1.channel = .items ∧ .table c ∈ u.2

/-- The link of a table names nobody else in the signal, and the table itself while it is live. -/
structure Hears (links : SlotTable Receiver) (c : TableId) (e : TableEntry) : Prop where
  issued : links.Issued e.table.itemsLink
  own : ∀ r, links.get? e.table.itemsLink = some r → r = .table c
  linked : e.IsLive → links.get? e.table.itemsLink = some (.table c)

/-- A live table is owed a notice, or stale, or shows the items. -/
def Current (us : UnderWay) (store : ItemStore) (c : TableId) (e : TableEntry) : Prop :=
  e.IsLive → Owed us c ∨ e.table.stale = true ∨ e.table.tree = store.tree e.table.properties

/-- All live tables hear of changes and are current. -/
structure NothingLost (us : UnderWay) (s : Session) : Prop where
  unblocked : s.source.itemsChanged.blocked = false
  sound : s.source.itemsChanged.table.Sound
  hears : s.EachTable (Hears s.source.itemsChanged.table)
  current : s.EachTable (Current us s.source.store)

variable {us : UnderWay} {s : Session} {c : TableId} {e e' : TableEntry}
  {links : SlotTable Receiver}

/-- What a table hears depends on its link and on whether it is live. -/
theorem Hears.congr (h : Hears links c e) (hlink : e'.table.itemsLink = e.table.itemsLink)
    (hlive : e'.IsLive → e.IsLive) : Hears links c e' where
  issued := hlink ▸ h.issued
  own := hlink ▸ h.own
  linked hl := hlink ▸ h.linked (hlive hl)

/-- A further receiver gets a link of its own. -/
theorem Hears.insert (h : Hears links c e) (hsound : links.Sound) (r : Receiver) :
    Hears (links.insert r) c e where
  issued := hsound.issued_insert r h.issued
  own := by
    rw [hsound.get?_insert, if_neg h.issued.ne_nextId]
    exact h.own
  linked hl := by
    rw [hsound.get?_insert, if_neg h.issued.ne_nextId]
    exact h.linked hl

/-- Removing another link does not matter to a live table, and to others no link matters. -/
theorem Hears.remove (h : Hears links c e) {id : SlotId}
    (hid : e.IsLive → e.table.itemsLink ≠ id) : Hears (links.remove id) c e where
  issued := h.issued.remove id
  own r hr := by
    rw [SlotTable.get?_remove] at hr
    split at hr
    · exact absurd hr.symm (Option.some_ne_none r)
    · exact h.own r hr
  linked hl := by
    rw [SlotTable.get?_remove, if_neg (hid hl)]
    exact h.linked hl

/-- What a table hears does not depend on its own signals. -/
theorem hears_ignoresSignals : TableEntry.IgnoresSignals (Hears links) :=
  fun _ _ _ ht h => h.congr ht.itemsLink id

/-- Whether a table is current does not depend on its own signals. -/
theorem current_ignoresSignals {store : ItemStore} :
    TableEntry.IgnoresSignals (Current us store) := by
  intro c e t ht h hl
  unfold Table.properties Table.tree
  rw [ht.stale, ht.arrangement]
  exact h hl

namespace NothingLost

/-- Only the signal of changes, the items and the tables matter. -/
theorem congr (h : NothingLost us s) {s' : Session}
    (hsignal : s'.source.itemsChanged = s.source.itemsChanged)
    (hstore : s'.source.store = s.source.store) (htables : s'.tables = s.tables) :
    NothingLost us s' where
  unblocked := hsignal ▸ h.unblocked
  sound := hsignal ▸ h.sound
  hears := by
    unfold EachTable
    rw [hsignal, htables]
    exact h.hears
  current := by
    unfold EachTable
    rw [hstore, htables]
    exact h.current

theorem write (h : NothingLost us s) (records : List LogRecord) :
    NothingLost us (s.write records) :=
  h.congr rfl rfl rfl

/-! ## Connections -/

/-- Signals other than that of changed items may be replaced. -/
theorem setSignal (h : NothingLost us s) {channel : Channel} (hc : channel ≠ .items)
    (signal : Signal Receiver) : NothingLost us (s.setSignal channel signal) := by
  have hhears := h.hears.setSignal hears_ignoresSignals channel signal
  have hcurrent := h.current.setSignal current_ignoresSignals channel signal
  cases channel with
  | items => exact absurd rfl hc
  | binding | grouped | expanded | collapsed | layout =>
    exact ⟨h.unblocked, h.sound, hhears, hcurrent⟩

/-- Anyone may connect to any signal. -/
theorem connect (h : NothingLost us s) (channel : Channel) (r : Receiver) :
    NothingLost us (s.connect channel r).2 := by
  by_cases hc : channel = .items
  · subst hc
    exact ⟨h.unblocked, h.sound.insert r, h.hears.mono fun _ _ he => he.insert h.sound r, h.current⟩
  · exact h.setSignal hc _

/-- Any link but those of live tables may be disconnected. -/
theorem disconnect (h : NothingLost us s) (channel : Channel) {id : Option SlotId}
    (hid : channel = .items →
      s.EachTable fun _ e => e.IsLive → id ≠ some e.table.itemsLink) :
    NothingLost us (s.disconnect channel id).2 := by
  by_cases hc : channel = .items
  · subst hc
    cases id with
    | none => exact h.congr rfl rfl rfl
    | some id =>
      refine ⟨h.unblocked, h.sound.remove id, fun c e he => ?_, h.current⟩
      exact (h.hears c e he).remove fun hl hlink => hid rfl c e he hl (hlink ▸ rfl)
  · exact h.setSignal hc _

/-! ## Tables -/

/-- A table may change as long as it keeps its link and stays current. -/
theorem modifyTable (h : NothingLost us s) {f : Table → Table}
    (hlink : ∀ t, (f t).itemsLink = t.itemsLink)
    (hcurrent : ∀ e, s.tables[c]? = some e → Current us s.source.store c e →
      Current us s.source.store c { e with table := f e.table }) :
    NothingLost us (s.modifyTable c f) where
  unblocked := h.unblocked
  sound := h.sound
  hears := h.hears.modifyTable fun e he => (h.hears c e he).congr (hlink e.table) id
  current := h.current.modifyTable fun e he => hcurrent e he (h.current c e he)

/-- A rebuilt table shows the present items. -/
theorem rebuild (h : NothingLost us s) (c : TableId) (properties : List String)
    (expandAll : Bool) : NothingLost us (s.rebuild c properties expandAll) := by
  have hp : (s.source.tree properties).properties = properties := GroupTree.properties_build _ _ _
  unfold Session.rebuild
  split
  · exact h
  · refine (h.write _).modifyTable (fun _ => rfl) fun e _ _ _ => .inr (.inr ?_)
    change s.source.tree properties = s.source.tree (s.source.tree properties).properties
    rw [hp]

/-- Other changes of what a table shows keep its tree. -/
theorem arrange (h : NothingLost us s) {f : Arrangement → Arrangement}
    (hf : ∀ t, s.table? c = some t → t.arrangement.Alters (f t.arrangement)) :
    NothingLost us (s.arrange c f) := by
  refine h.modifyTable (fun _ => rfl) fun e he hcurrent hl => ?_
  have htree := (hf e.table (table?_eq_some_iff.2 ⟨e, he, rfl⟩)).tree_eq
  unfold Table.properties Table.tree
  rw [htree]
  exact hcurrent hl

/-- A stale table need not show anything. -/
theorem markStale (h : NothingLost us s) (c : TableId) : NothingLost us (s.markStale c) :=
  h.modifyTable (fun _ => rfl) fun _ _ _ _ => .inr (.inl rfl)

/-- Calls may begin and return, and tables may be closed. -/
theorem modifyLife (h : NothingLost us s) {f : TableEntry → TableEntry}
    (htable : ∀ e, (f e).table = e.table)
    (hlive : ∀ e, s.tables[c]? = some e → (f e).IsLive → e.IsLive) :
    NothingLost us (s.modifyEntry c f) where
  unblocked := h.unblocked
  sound := h.sound
  hears := h.hears.modifyEntry fun e he =>
    (h.hears c e he).congr (congrArg Table.itemsLink (htable e)) (hlive e he)
  current := h.current.modifyEntry fun e he hl => htable e ▸ h.current c e he (hlive e he hl)

/-- A table that is no longer live may lose its link: no live table has the same one. -/
theorem release (h : NothingLost us s) (c : TableId) : NothingLost us (s.release c) := by
  unfold Session.release
  split
  · rename_i e he
    split
    · exact h
    · rename_i hdead
      refine NothingLost.disconnect (h.disconnect .items fun _ d e' he' hl hlink => ?_) .binding
        fun hc => absurd hc (by decide)
      have hnames := (h.hears d e' he').linked hl
      rw [← Option.some.inj hlink] at hnames
      obtain rfl := Receiver.table.inj ((h.hears c e he).own _ hnames)
      rw [he] at he'
      exact hdead (Option.some.inj he' ▸ hl)
  · exact h

/-- A new table shows the items and hears of their changes. -/
theorem openTable (h : NothingLost us s) (settings : Settings) :
    NothingLost us (s.openTable settings) := by
  have hp : (s.source.tree settings.properties).properties = settings.properties :=
    GroupTree.properties_build _ _ _
  have hc := (h.connect .items (.table s.tables.length)).connect .binding (.table s.tables.length)
  have hnext : (s.source.itemsChanged.table.insert (.table s.tables.length)).get?
      s.source.itemsChanged.table.nextId = some (.table s.tables.length) := by
    rw [h.sound.get?_insert, if_pos rfl]
  refine ⟨hc.unblocked, hc.sound, hc.hears.append ?_, hc.current.append fun _ => .inr (.inr ?_)⟩
  · exact ⟨h.sound.issued_nextId _, fun r hr => (Option.some.inj (hnext.symm.trans hr)).symm,
      fun _ => hnext⟩
  · change s.source.tree settings.properties =
      s.source.tree (s.source.tree settings.properties).properties
    rw [hp]

/-- A call begins on an open table only. -/
theorem enter (h : NothingLost us s) (hopen : s.isOpen c = true) : NothingLost us (s.enter c) := by
  refine h.modifyLife (fun _ => rfl) fun e he _ => .inl ?_
  unfold Session.isOpen at hopen
  rwa [he, Option.any_some] at hopen

/-! ## All alterations -/

/-- Every alteration that is fair keeps the tables current. -/
theorem alters {s' : Session} (h : NothingLost us s) (hs : Alters Fair s s') :
    NothingLost us s' := by
  cases hs with
  | write records => exact h.write records
  | hold | bind => exact h.congr rfl rfl rfl
  | rebuild c properties expandAll => exact h.rebuild c properties expandAll
  | arrange c f hf => exact h.arrange hf
  | openTable settings => exact h.openTable settings
  | close c =>
    exact h.modifyLife (fun _ => rfl) fun e _ hl => .inr (hl.resolve_left Bool.false_ne_true)
  | enter c hopen => exact h.enter hopen
  | finish c =>
    refine h.modifyLife (fun _ => rfl) fun e _ hl => hl.imp_right fun hcalls hzero => hcalls ?_
    simp [hzero]
  | release c => exact h.release c
  | block channel on ha =>
    by_cases hc : channel = .items
    · subst hc
      exact ⟨ha, h.sound, h.hears, h.current⟩
    · exact h.setSignal hc _
  | listen name channel script times =>
    have hc := h.connect channel (.listener s.listeners.length)
    exact ⟨hc.unblocked, hc.sound, hc.hears, hc.current⟩
  | unlisten name channel ha =>
    refine h.disconnect channel fun hc => ?_
    subst hc
    exact ha
  | load items ha => exact ha.elim

end NothingLost

/-! ## Notices -/

/-- A table stays current as long as what is owed to it stays so. -/
theorem Current.owed {store : ItemStore} {us us' : UnderWay} (h : Current us store c e)
    (hu : Owed us c → Owed us' c) : Current us' store c e := by
  intro hl
  rcases h hl with h | h
  · exact .inl (hu h)
  · exact .inr h

/-- To owe more notices is no loss. -/
theorem NothingLost.mono {us us' : UnderWay} (h : NothingLost us s)
    (hu : ∀ c, Owed us c → Owed us' c) : NothingLost us' s :=
  ⟨h.unblocked, h.sound, h.hears, h.current.mono fun c _ he => he.owed (hu c)⟩

/-- A further notice takes nothing away from what is owed. -/
theorem Owed.cons {us : UnderWay} (h : Owed us c) (u : Notice × List Receiver) :
    Owed (u :: us) c := by
  obtain ⟨v, hv, ho⟩ := h
  exact ⟨v, List.mem_cons_of_mem _ hv, ho⟩

/-- More notices under way leave nobody behind. -/
theorem NothingLost.fit (h : NothingLost us s) (n : Notice) : Fit NothingLost us n s := by
  have hbegun : NothingLost us (s.beginEmission n) := h.write _
  exact hbegun.mono fun _ ho => ho.cons _

/-- A notice of changed items is owed to all live tables, whatever the items are and whichever
other notices are under way. -/
theorem NothingLost.announce (h : NothingLost us s) {s' : Session}
    (hsignal : s'.source.itemsChanged = s.source.itemsChanged) (htables : s'.tables = s.tables)
    {n : Notice} (hn : n.channel = .items) (us' : UnderWay) : Fit NothingLost us' n s' where
  unblocked := hsignal ▸ h.unblocked
  sound := hsignal ▸ h.sound
  hears c e he := by
    rw [show (s'.beginEmission n).source.itemsChanged = s.source.itemsChanged from hsignal]
    exact h.hears c e (htables ▸ he)
  current c e he hl := by
    refine .inl ⟨_, List.mem_cons_self, hn, ?_⟩
    have hlink := (h.hears c e (htables ▸ he)).linked hl
    change .table c ∈ (s'.signal n.channel).audience
    rw [hn, show s'.signal .items = s.source.itemsChanged from hsignal]
    unfold Signal.audience
    rw [h.unblocked]
    exact SlotTable.mem_values_of_get? hlink

/-- So it is when the items have been exchanged. -/
theorem NothingLost.exchange (h : NothingLost us s) (change : ItemChange) (store : ItemStore)
    (us' : UnderWay) :
    Fit NothingLost us' (.items change)
      ((s.setStore store).writeEntry (.itemsChanged change)) := by
  refine h.announce ?_ ?_ ?_ us' <;> rfl

/-- Who is called is owed one notice less. -/
theorem Owed.of_ne {n : Notice} {r : Receiver} {pending : List Receiver} (hr : r ≠ .table c)
    (h : Owed ((n, r :: pending) :: us) c) : Owed ((n, pending) :: us) c := by
  obtain ⟨u, hu, hn, hc⟩ := h
  rcases List.mem_cons.1 hu with rfl | hu
  · rcases List.mem_cons.1 hc with rfl | hc
    · exact absurd rfl hr
    · exact ⟨_, List.mem_cons_self, hn, hc⟩
  · exact ⟨u, List.mem_cons_of_mem _ hu, hn, hc⟩

/-- A table that is called becomes stale, so it need not be owed the notice any more. -/
theorem NothingLost.receive {n : Notice} {r : Receiver} {pending : List Receiver}
    (h : NothingLost ((n, r :: pending) :: us) s) :
    NothingLost ((n, pending) :: us) (s.receive n r) := by
  cases r with
  | journal | listener =>
    exact ⟨h.unblocked, h.sound, h.hears, h.current.mono fun c e he =>
      he.owed (Owed.of_ne (by simp))⟩
  | table c =>
    have hstale := (h.write (hearLog n)).markStale c
    refine ⟨hstale.unblocked, hstale.sound, hstale.hears, ?_⟩
    refine eachTable_modifyEntry (fun e _ _ => .inr (.inl rfl)) fun d e hd he => ?_
    exact (h.current d e he).owed (Owed.of_ne fun hr => hd (Receiver.table.inj hr).symm)

/-- A notice that has reached all its receivers is owed to nobody. -/
theorem Owed.of_nil {n : Notice} (h : Owed ((n, []) :: us) c) : Owed us c := by
  obtain ⟨u, hu, hn, hc⟩ := h
  rcases List.mem_cons.1 hu with rfl | hu
  · exact absurd hc List.not_mem_nil
  · exact ⟨u, hu, hn, hc⟩

/-- When an emission that has reached all its receivers ends, nothing is lost. -/
theorem NothingLost.endEmission {n : Notice} (h : NothingLost ((n, []) :: us) s) :
    NothingLost us s.endEmission := by
  have hover : NothingLost ((n, []) :: us) s.endEmission := h.write _
  exact hover.mono fun _ => Owed.of_nil

/-- That nothing is lost is safe as long as code outside is fair. -/
theorem safe_nothingLost : Safe Fair NothingLost :=
  .of_alterations (fun _ _ _ h hs => h.alters hs) (fun _ _ n h => h.fit n)
    (fun us _ change store h _ => h.exchange change store us)
    (fun _ _ _ _ _ _ h => h.congr rfl rfl rfl)
    (fun _ _ _ _ _ h => h.receive) (fun _ _ _ h => h.endEmission)

/-- A session starts without tables. -/
theorem nothingLost_ofStore (store : ItemStore) (log : List LogRecord) :
    NothingLost [] (ofStore store log) where
  unblocked := rfl
  sound := SlotTable.sound_empty.insert Receiver.journal
  hears _ _ he := absurd he.symm (Option.some_ne_none _)
  current _ _ he := absurd he.symm (Option.some_ne_none _)

/-- Whenever all calls have returned, every table that is not closed is stale or has the tree of
the source's present items and values by its own properties, whatever calls listeners have made
from inside notices and how deep these have nested. -/
theorem stale_or_current_at_rest {items : List Item} {m : Moment}
    (h : Reaches Fair ⟨start items, []⟩ m) (hrest : m.waiting = []) :
    ∀ (c : TableId) (e : TableEntry), m.session.tables[c]? = some e → e.IsLive →
      e.table.stale = true ∨
      e.table.tree =
        .build m.session.source.store.ids e.table.properties m.session.source.store.value? := by
  intro c e he hl
  have hm := safe_nothingLost.holds (nothingLost_ofStore _ _) h
  rw [hrest] at hm
  rcases hm.current c e he hl with ⟨u, hu, _⟩ | h
  · exact absurd hu List.not_mem_nil
  · exact h

/-! ## Fair scripts -/

mutual

/-- The step is fair in every session, and so are the steps of a script that it connects. -/
def alwaysFair : Step → Bool
  | .source (.loadQuietly _) => false
  | .block .items on => !on
  | .unlisten _ .items => false
  | .listen _ _ script _ => allFair script
  | _ => true

/-- All steps are fair in every session. -/
def allFair : List Step → Bool
  | [] => true
  | step :: rest => alwaysFair step && allFair rest

end

/-- A list of steps is fair if each step is. -/
theorem allFair_iff {steps : List Step} :
    allFair steps = true ↔ ∀ step ∈ steps, alwaysFair step = true := by
  induction steps with
  | nil => simp [allFair]
  | cons step rest ih => simp [allFair, ih]

/-- Fair steps connect fair scripts only. -/
theorem playable_alwaysFair : Playable Fair fun step => alwaysFair step = true where
  allowed s step h := by
    unfold Fair
    split
    · simp [alwaysFair] at h
    · simpa [alwaysFair] using h
    · simp [alwaysFair] at h
    · trivial
  script name channel script times h := by
    rw [alwaysFair] at h
    exact allFair_iff.1 h

/-- A listener regroups the table and adds an item while an item is being announced. -/
theorem stale_or_current_after_nested_change :
    let s := (runAll 1 [
      .openTable (.changes [.properties ["kind"]]),
      .listen "again" .items
        [.table 0 (.groupBy ["size"]), .source (.push ⟨.number 2, .empty⟩)] 1,
      .source (.push ⟨.number 1, .empty⟩),
      .askTable 0 .size] (start [])).2
    ∃ e : TableEntry, s.tables[0]? = some e ∧ e.IsLive ∧ e.table.properties = ["size"] ∧
      (e.table.stale = true ∨
        e.table.tree = .build s.source.store.ids e.table.properties s.source.store.value?) := by
  intro s
  have hs : Reaches Fair ⟨start [], []⟩ ⟨s, []⟩ :=
    reaches_runAll playable_alwaysFair 1 (allFair_iff.1 rfl) fun l hl => absurd hl List.not_mem_nil
  exact ⟨_, rfl, .inl rfl, rfl, stale_or_current_at_rest hs rfl 0 _ rfl (.inl rfl)⟩

end Moment

end GroupedRows
