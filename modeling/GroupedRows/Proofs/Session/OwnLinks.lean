import GroupedRows.Proofs.Session.Coherence
import GroupedRows.Proofs.Session.Connections
import GroupedRows.Proofs.Signal.Register

/-!
# Tables give up their own connections only

A table keeps the two identifiers that it got when it connected to its source. Whatever
happens to the source's signals from then on, also when everybody is disconnected and
others connect in the freed slots, each of the two names this table or nobody. So a table
that is dropped takes no connection from anybody else.
-/

namespace GroupedRows

/-- The identifier has been given away, and names nobody but the table. -/
structure SlotTable.Holds (links : SlotTable Receiver) (c : TableId) (link : SlotId) : Prop where
  issued : links.Issued link
  own : ∀ r, links.get? link = some r → r = .table c

/-- Whatever is done to a signal, the identifier does not come to name anybody else. -/
theorem SlotTable.Holds.perform {signal : Signal Receiver} {c : TableId} {link : SlotId}
    (h : signal.table.Holds c link) (hsound : signal.table.Sound)
    (action : Signal.Action Receiver) : (signal.perform action).table.Holds c link where
  issued := Signal.issued_perform hsound action h.issued
  own r hr := by
    rcases Signal.get?_perform_of_issued hsound h.issued action with hsame | hnone
    · exact h.own r (hsame ▸ hr)
    · exact absurd (hnone.symm.trans hr) (Option.some_ne_none r).symm

namespace Session

/-- Anybody who has a session's signal at hand does something to it. -/
def use (s : Session) (channel : Channel) (action : Signal.Action Receiver) : Session :=
  s.setSignal channel ((s.signal channel).perform action)

/-- What can happen to a session next: an alteration by a call, an exchange of the items, a stage of
an emission, notes of code outside, and anything that anybody does to a signal. -/
inductive Happens (s : Session) : Session → Prop where
  | alter {s' : Session} : Alters Moment.AnyStep s s' → Happens s s'
  | exchange (store : ItemStore) : Happens s (s.setStore store)
  | beginEmission (n : Notice) : Happens s (s.beginEmission n)
  | receive (n : Notice) (r : Receiver) : Happens s (s.receive n r)
  | endEmission : Happens s s.endEmission
  | note (listeners : List Listener) (names : OrderedMap String SlotId)
      (held : OrderedMap String Snapshot) (journal : List Event) :
      Happens s { s with listeners, names, held, journal }
  | use (channel : Channel) (action : Signal.Action Receiver) : Happens s (s.use channel action)

/-- Any number of such changes. -/
abbrev Becomes : Session → Session → Prop := Relation.ReflTransGen Happens

/-- The links of the entry name nobody but its table. -/
structure HoldsLinks (items binding : SlotTable Receiver) (c : TableId) (e : TableEntry) :
    Prop where
  items : items.Holds c e.table.itemsLink
  binding : binding.Holds c e.table.bindingLink

/-- The source's signals keep identifiers apart, and the links of each table name nobody else. -/
structure LinksKept (s : Session) : Prop where
  items : s.source.itemsChanged.table.Sound
  binding : s.source.bindingChanged.table.Sound
  links : s.EachTable (HoldsLinks s.source.itemsChanged.table s.source.bindingChanged.table)

variable {s s' : Session}

/-- Without tables there are no links to keep. -/
theorem linksKept_ofStore (store : ItemStore) (log : List LogRecord) :
    (ofStore store log).LinksKept where
  items := SlotTable.sound_empty.insert _
  binding := SlotTable.sound_empty.insert _
  links _ _ he := absurd he.symm (Option.some_ne_none _)

namespace LinksKept

/-- Whatever anybody does to a signal, nobody gets hold of a table's links. -/
theorem use (h : s.LinksKept) (channel : Channel) (action : Signal.Action Receiver) :
    (s.use channel action).LinksKept := by
  cases channel with
  | items =>
    exact ⟨Signal.sound_perform h.items action, h.binding,
      h.links.mono fun c e he => ⟨he.items.perform h.items action, he.binding⟩⟩
  | binding =>
    exact ⟨h.items, Signal.sound_perform h.binding action,
      h.links.mono fun c e he => ⟨he.items, he.binding.perform h.binding action⟩⟩
  | grouped c | expanded c | collapsed c | layout c =>
    exact ⟨h.items, h.binding, h.links.modifyTable fun e he => ⟨(h.links c e he).items,
      (h.links c e he).binding⟩⟩

/-- A change of an entry that leaves its links. -/
theorem modifyEntry (h : s.LinksKept) (c : TableId) {f : TableEntry → TableEntry}
    (hitems : ∀ e, (f e).table.itemsLink = e.table.itemsLink)
    (hbinding : ∀ e, (f e).table.bindingLink = e.table.bindingLink) :
    (s.modifyEntry c f).LinksKept where
  items := h.items
  binding := h.binding
  links := h.links.modifyEntry fun e he => by
    obtain ⟨hi, hb⟩ := h.links c e he
    exact ⟨(hitems e).symm ▸ hi, (hbinding e).symm ▸ hb⟩

/-- A new table holds the identifiers that it gets. -/
theorem openTable (h : s.LinksKept) (settings : Settings) : (s.openTable settings).LinksKept := by
  have hused := (h.use .items (.connect (.table s.tables.length))).use .binding
    (.connect (.table s.tables.length))
  have hnew : ∀ {links : SlotTable Receiver}, links.Sound →
      (links.insert (.table s.tables.length)).Holds s.tables.length links.nextId := by
    intro links hsound
    refine ⟨hsound.issued_nextId _, fun r hr => ?_⟩
    rw [hsound.get?_insert, if_pos rfl] at hr
    exact (Option.some.inj hr).symm
  exact ⟨hused.items, hused.binding, hused.links.append ⟨hnew h.items, hnew h.binding⟩⟩

/-- A table that is released gives up its own links only. -/
theorem release (h : s.LinksKept) (c : TableId) : (s.release c).LinksKept := by
  unfold Session.release
  split
  · rename_i e he
    split
    · exact h
    · exact (h.use .items (.disconnect (some e.table.itemsLink))).use .binding
        (.disconnect (some e.table.bindingLink))
  · exact h

/-- Every alteration keeps the links of all tables. -/
theorem alters {allowed : Session → Step → Prop} (h : s.LinksKept) (hs : Alters allowed s s') :
    s'.LinksKept := by
  cases hs with
  | write | hold | bind | load => exact ⟨h.items, h.binding, h.links⟩
  | rebuild c properties expandAll =>
    unfold rebuild
    split
    · exact h
    · rename_i t _
      have hwritten : (s.write (t.rebuildLog s.source properties expandAll)).LinksKept :=
        ⟨h.items, h.binding, h.links⟩
      exact hwritten.modifyEntry c (fun _ => rfl) fun _ => rfl
  | arrange c | close c | enter c | finish c => exact h.modifyEntry c (fun _ => rfl) fun _ => rfl
  | openTable settings => exact h.openTable settings
  | release c => exact h.release c
  | block channel on => exact h.use channel (.block on)
  | listen name channel =>
    have hused := h.use channel (.connect (.listener s.listeners.length))
    exact ⟨hused.items, hused.binding, hused.links⟩
  | unlisten name channel => exact h.use channel (.disconnect (s.names.get? name))

/-- A receiver that hears of a notice connects nobody. -/
theorem receive (h : s.LinksKept) (n : Notice) (r : Receiver) : (s.receive n r).LinksKept := by
  cases r with
  | journal | listener => exact ⟨h.items, h.binding, h.links⟩
  | table c =>
    have hwritten : (s.write (hearLog n)).LinksKept := ⟨h.items, h.binding, h.links⟩
    exact hwritten.modifyEntry c (fun _ => rfl) fun _ => rfl

/-- Whatever happens next keeps the links of all tables. -/
theorem happens (h : s.LinksKept) (hs : Happens s s') : s'.LinksKept := by
  cases hs with
  | alter ha => exact h.alters ha
  | exchange | beginEmission | endEmission | note => exact ⟨h.items, h.binding, h.links⟩
  | receive n r => exact h.receive n r
  | use channel action => exact h.use channel action

/-- Whatever has happened, each table's links name nobody else. -/
theorem becomes (h : s.LinksKept) (hs : Becomes s s') : s'.LinksKept := by
  induction hs with
  | refl => exact h
  | tail _ hstep ih => exact ih.happens hstep

end LinksKept

/-- Whatever moves lead to may happen. -/
theorem becomes_of_reaches {m : Moment} (h : Moment.Reaches Moment.AnyStep ⟨s, []⟩ m) :
    Becomes s m.session := by
  have hsafe : Moment.Safe Moment.AnyStep fun _ s' => Becomes s s' := by
    refine .of_alterations (fun _ _ _ hs ha => hs.tail (.alter ha)) ?_ ?_ ?_ ?_ ?_
    · exact fun _ _ n hs => hs.tail (.beginEmission n)
    · exact fun _ s' change store hs _ =>
        ((hs.tail (.exchange store)).tail (.alter (.write _))).tail (.beginEmission (.items change))
    · exact fun _ _ listeners names held journal hs =>
        hs.tail (.note listeners names held journal)
    · exact fun _ n r _ _ hs => hs.tail (.receive n r)
    · exact fun _ _ _ hs => hs.tail .endEmission
  exact hsafe.holds .refl h

/-! ## Dropping a table -/

end Session

/-- The identifier under which a table is connected to a signal of its source. -/
def Table.link? (t : Table) : Channel → Option SlotId
  | .items => some t.itemsLink
  | .binding => some t.bindingLink
  | _ => none

namespace Session

variable {s : Session} {c : TableId} {e : TableEntry}

/-- A table's links name nobody but the table. -/
theorem LinksKept.own_link (h : s.LinksKept) (he : s.tables[c]? = some e) {channel : Channel}
    {link : SlotId} (hlink : e.table.link? channel = some link) {r : Receiver}
    (hr : (s.signal channel).table.get? link = some r) : r = .table c := by
  obtain ⟨hitems, hbinding⟩ := h.links c e he
  cases channel with
  | items => exact hitems.own r (Option.some.inj hlink ▸ hr)
  | binding => exact hbinding.own r (Option.some.inj hlink ▸ hr)
  | grouped | expanded | collapsed | layout => exact absurd hlink (Option.some_ne_none link).symm

/-- A table that is released gives up its links, unless it is still in use. Nothing else is
disconnected. -/
theorem get?_release (he : s.tables[c]? = some e) (channel : Channel) (id : SlotId) :
    ((s.release c).signal channel).table.get? id =
      if e.table.link? channel = some id ∧ e.isOpen = false ∧ e.calls = 0 then none
      else (s.signal channel).table.get? id := by
  have hrelease : s.release c =
      if e.isOpen = true ∨ e.calls ≠ 0 then s
      else ((s.disconnect .items (some e.table.itemsLink)).2.disconnect .binding
        (some e.table.bindingLink)).2 := by
    unfold release
    rw [he]
  rw [hrelease]
  by_cases hlive : e.isOpen = true ∨ e.calls ≠ 0
  · rw [if_pos hlive, if_neg]
    rintro ⟨-, hclosed, hidle⟩
    rcases hlive with hopen | hbusy
    · exact Bool.noConfusion (hclosed.symm.trans hopen)
    · exact hbusy hidle
  · have hdropped : e.isOpen = false ∧ e.calls = 0 := by simpa using hlive
    rw [if_neg hlive]
    simp only [hdropped, and_true]
    cases channel with
    | items =>
      simp only [Table.link?, Option.some.injEq]
      exact (SlotTable.get?_remove s.source.itemsChanged.table e.table.itemsLink id).trans
        (if_congr eq_comm rfl rfl)
    | binding =>
      simp only [Table.link?, Option.some.injEq]
      exact (SlotTable.get?_remove s.source.bindingChanged.table e.table.bindingLink id).trans
        (if_congr eq_comm rfl rfl)
    | grouped | expanded | collapsed | layout => rfl

/-- Who closes a table, or ends a call on one, disconnects nothing but the table's own links, and
these as soon as the table is neither open nor in use. -/
theorem get?_drop (he : s.tables[c]? = some e) (channel : Channel) (id : SlotId) :
    ((s.closeTable c).signal channel).table.get? id =
        (if e.table.link? channel = some id ∧ e.isOpen = true ∧ e.calls = 0 then none
          else (s.signal channel).table.get? id) ∧
      ((s.leave c).signal channel).table.get? id =
        (if e.table.link? channel = some id ∧ e.isOpen = false ∧ e.calls ≤ 1 then none
          else (s.signal channel).table.get? id) := by
  constructor
  · have hopen : s.isOpen c = e.isOpen := by simp [isOpen, he]
    unfold closeTable
    rw [hopen]
    split
    · rename_i ho
      have hsame : (s.modifyEntry c fun e => { e with isOpen := false }).signal channel =
          s.signal channel := signal_modifyEntry c (by intro e; rfl) channel
      rw [get?_release (getElem?_modifyEntry he _), hsame]
      simp [ho]
    · rename_i hclosed
      rw [if_neg fun h => hclosed h.2.1]
  · have hsame : (s.modifyEntry c fun e => { e with calls := e.calls - 1 }).signal channel =
        s.signal channel := signal_modifyEntry c (by intro e; rfl) channel
    unfold leave
    rw [get?_release (getElem?_modifyEntry he _), hsame]
    simp only [Nat.sub_eq_zero_iff_le]

end Session

open Signal Session

/-- Disconnecting touches one's own connection only. After every history of a signal, by whatever
parties: no identifier has been answered twice; the connections are exactly those that have been
made and not been given up since, each is counted once, and an emission that is let through calls
their receivers, each connection once, whatever the calls do. An identifier is accepted exactly if
its connection is live; then this one is removed and all others stay. Once given up, it is never
accepted again.

So it is for the tables of a session, whatever happens to it, also when everybody is disconnected
from its signals and others connect afterwards: the links of a table name nobody but the table, and
when it is dropped, by being closed or by the return of the last call on a closed one, its links are
given up, and nobody else is disconnected from any signal. -/
theorem disconnecting_touches_own_connections :
    (∀ {α : Type} (history : List (Action α)),
      let u := history.foldl Usage.perform .fresh
      (u.register.map Prod.fst).Nodup ∧ u.signal.Lists u.live ∧
      u.signal.count = u.live.length ∧
      (u.signal.blocked = false → u.signal.audience.Perm (u.live.map Prod.snd)) ∧
      (u.signal.blocked = false → ∃ order : List (SlotId × α), order.Perm u.live ∧
        ∀ {σ : Type} (call : α → σ → σ) (state : σ),
          u.signal.deliver call state = order.foldl (fun state p => call p.2 state) state) ∧
      ∀ id, ((u.signal.disconnect (some id)).1 = true ↔ ∃ a, (id, some a) ∈ u.register) ∧
        (u.signal.disconnect (some id)).2.Lists (u.live.filter fun p => p.1 ≠ id) ∧
        ((id, none) ∈ u.register → ∀ later : List (Action α),
          ((later.foldl Usage.perform u).signal.disconnect (some id)).1 = false)) ∧
    ∀ (store : ItemStore) (log : List LogRecord) (s : Session), Becomes (ofStore store log) s →
      ∀ c e, s.tables[c]? = some e → ∀ channel id,
        (e.table.link? channel = some id →
          ∀ r, (s.signal channel).table.get? id = some r → r = .table c) ∧
        ((s.closeTable c).signal channel).table.get? id =
          (if e.table.link? channel = some id ∧ e.isOpen = true ∧ e.calls = 0 then none
            else (s.signal channel).table.get? id) ∧
        ((s.leave c).signal channel).table.get? id =
          (if e.table.link? channel = some id ∧ e.isOpen = false ∧ e.calls ≤ 1 then none
            else (s.signal channel).table.get? id) := by
  constructor
  · intro α history u
    have hu : u.Agrees := Usage.agrees_fresh.foldl_perform history
    refine ⟨hu.distinct, hu.lists_live, hu.lists_live.length_eq_count.symm, fun hopen => ?_,
      hu.lists_live.exists_deliver_eq_foldl, ?_⟩
    · rw [audience_eq_entries hopen]
      exact (u.signal.lists_entries.perm hu.lists_live).map Prod.snd
    · intro id
      refine ⟨hu.disconnect_iff id, ?_, fun hgone later => ?_⟩
      · rw [← Usage.live_perform_disconnect]
        exact (hu.perform (.disconnect (some id))).lists_live
      · exact (hu.foldl_perform later).disconnect_of_gone (Usage.gone_foldl_perform hgone later)
  · intro store log s hs c e he channel id
    have hs : s.LinksKept := (linksKept_ofStore store log).becomes hs
    exact ⟨fun hlink r hr => hs.own_link he hlink hr, get?_drop he channel id⟩

/-- Everybody is disconnected from the items while a table is open, and a listener takes over its
slot. Closing the table leaves the listener. -/
theorem newcomer_stays_when_table_is_closed :
    let opened := (runAll 0 [.openTable (.changes [])] (start [])).2
    let s := (opened.use .items .disconnectAll).listen "x" .items [] 0
    (s.tables[0]?.bind fun e => e.table.link? .items) = some ⟨1, 1⟩ ∧
      (s.signal .items).table.get? ⟨1, 3⟩ = some (.listener 0) ∧
      ((s.closeTable 0).signal .items).table.get? ⟨1, 3⟩ = some (.listener 0) ∧
      ((s.closeTable 0).signal .binding).table.get? ⟨1, 1⟩ = none := by
  intro opened s
  have hmoves : Moment.Reaches Moment.AnyStep ⟨start [], []⟩ ⟨opened, []⟩ :=
    Moment.reaches_runAll_ofStore _ _ 0 _
  have hopened : Becomes (start []) opened := becomes_of_reaches hmoves
  have hs : Becomes (start []) s :=
    (hopened.tail (.use .items .disconnectAll)).tail (.alter (.listen "x" .items [] 0 trivial))
  have hdropped := fun channel id =>
    (disconnecting_touches_own_connections.2 (.ofItems []) (storeLog []) s hs 0 _ rfl channel
      id).2.1
  exact ⟨rfl, rfl, (hdropped .items ⟨1, 3⟩).trans rfl, (hdropped .binding ⟨1, 1⟩).trans rfl⟩

end GroupedRows
