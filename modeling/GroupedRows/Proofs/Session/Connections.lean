import GroupedRows.Proofs.Session.NoLostChange
import GroupedRows.Proofs.Session.QuietEmission

/-!
# Who is connected to whom

In an orderly session every signal reaches the journal once, the signals of the source
reach exactly the tables that are live, and what is connected under a name is a listener
of this name. Listeners are quiet, and each name belongs to the signals on which it may
be given up. Only connecting and disconnecting matters for this, so calls that leave all
connections leave a session orderly.
-/

namespace GroupedRows

open Session

/-! ## One signal -/

/-- A signal reaches the journal once and only such tables as may hear it, and what is known under a
name is given away, to a listener of the name as long as it is connected. -/
structure Attended (links : SlotTable Receiver) (hears : TableId → Prop)
    (known : String → SlotId → Prop) (called : Nat → String → Prop) : Prop where
  sound : links.Sound
  journal : ∃ i, ∀ id, links.get? id = some .journal ↔ id = i
  tables : ∀ id c, links.get? id = some (.table c) → hears c
  issued : ∀ name id, known name id → links.Issued id
  named : ∀ name id r, known name id → links.get? id = some r →
    ∃ number, r = .listener number ∧ called number name

/-- The link of a table names nobody else, nobody else names the table, and the link is in use while
the table is live. -/
structure Wire (links : SlotTable Receiver) (c : TableId) (live : Prop) (link : SlotId) : Prop where
  issued : links.Issued link
  own : ∀ id r, links.get? id = some r → (id = link ↔ r = .table c)
  linked : links.get? link = some (.table c) ↔ live

section

variable {links : SlotTable Receiver} {hears : TableId → Prop} {known : String → SlotId → Prop}
  {called : Nat → String → Prop} {c : TableId} {live : Prop} {link id : SlotId} {r : Receiver}

/-- Whoever connects leaves all identifiers that were given away as they are. -/
theorem SlotTable.Sound.get?_insert_of_issued (h : links.Sound) (r : Receiver)
    (hid : links.Issued id) : (links.insert r).get? id = links.get? id := by
  rw [h.get?_insert, if_neg hid.ne_nextId]

/-- Whoever connects, apart from the journal, is attended to like all others. -/
theorem Attended.insert (h : Attended links hears known called) (hr : r ≠ .journal)
    (htable : ∀ c, r = .table c → hears c) : Attended (links.insert r) hears known called where
  sound := h.sound.insert r
  journal := by
    obtain ⟨i, hi⟩ := h.journal
    refine ⟨i, fun id => ?_⟩
    rw [h.sound.get?_insert]
    split
    · rename_i hid
      refine ⟨fun hj => absurd (Option.some.inj hj) hr, fun he => ?_⟩
      have hnone := h.sound.get?_nextId
      rw [← hid, he, (hi i).2 rfl] at hnone
      exact absurd hnone (Option.some_ne_none _)
    · exact hi id
  tables id c hc := by
    rw [h.sound.get?_insert] at hc
    split at hc
    · exact htable c (Option.some.inj hc)
    · exact h.tables id c hc
  issued name id hk := h.sound.issued_insert r (h.issued name id hk)
  named name id r' hk hr' := by
    rw [h.sound.get?_insert_of_issued r (h.issued name id hk)] at hr'
    exact h.named name id r' hk hr'

/-- Disconnecting anybody but the journal leaves the others attended to. -/
theorem Attended.remove (h : Attended links hears known called)
    (hid : links.get? id ≠ some .journal) : Attended (links.remove id) hears known called where
  sound := h.sound.remove id
  journal := by
    obtain ⟨i, hi⟩ := h.journal
    refine ⟨i, fun j => ?_⟩
    rw [SlotTable.get?_remove]
    split
    · rename_i hj
      exact ⟨fun he => absurd he.symm (Option.some_ne_none _), fun he =>
        absurd ((hi id).2 (hj ▸ he)) hid⟩
    · exact hi j
  tables j c hc := by
    rw [SlotTable.get?_remove] at hc
    split at hc
    · exact absurd hc.symm (Option.some_ne_none _)
    · exact h.tables j c hc
  issued name j hk := (h.issued name j hk).remove id
  named name j r hk hr := by
    rw [SlotTable.get?_remove] at hr
    split at hr
    · exact absurd hr.symm (Option.some_ne_none r)
    · exact h.named name j r hk hr

/-- Only the receivers matter, and who may be among them. -/
theorem Attended.mono {hears' : TableId → Prop} {known' : String → SlotId → Prop}
    {called' : Nat → String → Prop} (h : Attended links hears known called)
    (hhears : ∀ c, hears c → hears' c) (hknown : ∀ name id, known' name id → known name id)
    (hcalled : ∀ number name, called number name → called' number name) :
    Attended links hears' known' called' where
  sound := h.sound
  journal := h.journal
  tables id c hc := hhears c (h.tables id c hc)
  issued name id hk := h.issued name id (hknown name id hk)
  named name id r hk hr := by
    obtain ⟨number, hnumber, hname⟩ := h.named name id r (hknown name id hk) hr
    exact ⟨number, hnumber, hcalled number name hname⟩

/-- A signal to which only the journal is connected. -/
theorem attended_journal (hknown : ∀ name id, ¬ known name id) :
    Attended (SlotTable.empty.insert .journal) hears known called := by
  have hget : ∀ id r, (SlotTable.empty.insert Receiver.journal).get? id = some r ↔
      id = SlotTable.nextId (α := Receiver) .empty ∧ r = .journal := by
    intro id r
    rw [SlotTable.sound_empty.get?_insert]
    split
    · rename_i hid
      exact ⟨fun h => ⟨hid, (Option.some.inj h).symm⟩, fun h => congrArg some h.2.symm⟩
    · rename_i hid
      exact ⟨fun h => absurd h.symm (Option.some_ne_none r), fun h => absurd h.1 hid⟩
  exact {
    sound := SlotTable.sound_empty.insert _
    journal := ⟨SlotTable.nextId (α := Receiver) .empty, fun id =>
      (hget id _).trans (and_iff_left rfl)⟩
    tables := fun id c hc => Receiver.noConfusion ((hget id _).1 hc).2
    issued := fun name id hk => absurd hk (hknown name id)
    named := fun name id _ hk => absurd hk (hknown name id) }

/-- The connections of others leave the link of a table. -/
theorem Wire.insert (h : Wire links c live link) (hsound : links.Sound) (hr : r ≠ .table c) :
    Wire (links.insert r) c live link where
  issued := hsound.issued_insert r h.issued
  own id r' hr' := by
    rw [hsound.get?_insert] at hr'
    split at hr'
    · rename_i hid
      obtain rfl := Option.some.inj hr'
      exact ⟨fun he => absurd (he ▸ hid) h.issued.ne_nextId, fun he => absurd he hr⟩
    · exact h.own id r' hr'
  linked := by
    rw [hsound.get?_insert_of_issued r h.issued]
    exact h.linked

/-- Giving up an identifier leaves the table's link unless it is this one. -/
theorem Wire.remove (h : Wire links c live link) (hid : link = id → ¬ live) :
    Wire (links.remove id) c live link where
  issued := h.issued.remove id
  own j r hr := by
    rw [SlotTable.get?_remove] at hr
    split at hr
    · exact absurd hr.symm (Option.some_ne_none r)
    · exact h.own j r hr
  linked := by
    rw [SlotTable.get?_remove]
    split
    · rename_i he
      exact ⟨fun h => absurd h.symm (Option.some_ne_none _), fun hlive => absurd hlive (hid he)⟩
    · exact h.linked

/-- A table whose link has been given up need not be live. -/
theorem Wire.unlink (h : Wire links c live link) : Wire (links.remove link) c False link where
  issued := h.issued.remove link
  own j r hr := by
    rw [SlotTable.get?_remove] at hr
    split at hr
    · exact absurd hr.symm (Option.some_ne_none r)
    · exact h.own j r hr
  linked := by
    rw [SlotTable.get?_remove, if_pos rfl]
    exact ⟨fun h => absurd h.symm (Option.some_ne_none _), False.elim⟩

/-- The link counts as live as long as the table does. -/
theorem Wire.congr {live' : Prop} (h : Wire links c live link) (hlive : live ↔ live') :
    Wire links c live' link :=
  ⟨h.issued, h.own, h.linked.trans hlive⟩

/-- A listener is known from then on under a name. -/
theorem Attended.listen (h : Attended links hears known called) {name : String} {number : Nat}
    {known' : String → SlotId → Prop} {called' : Nat → String → Prop}
    (hknown : ∀ n id, known' n id → known n id ∨ n = name ∧ id = links.nextId)
    (hcalled : ∀ number n, called number n → called' number n) (hname : called' number name) :
    Attended (links.insert (.listener number)) hears known' called' := by
  have hold := (h.insert (r := .listener number) Receiver.noConfusion fun _ => Receiver.noConfusion)
  refine ⟨hold.sound, hold.journal, hold.tables, fun n id hk => ?_, fun n id r hk hr => ?_⟩
  · rcases hknown n id hk with hk | ⟨rfl, rfl⟩
    · exact hold.issued n id hk
    · exact h.sound.issued_nextId _
  · rcases hknown n id hk with hk | ⟨rfl, rfl⟩
    · obtain ⟨m, hm, hn⟩ := hold.named n id r hk hr
      exact ⟨m, hm, hcalled m n hn⟩
    · rw [h.sound.get?_insert, if_pos rfl] at hr
      exact ⟨number, (Option.some.inj hr).symm, hname⟩

/-- A table is linked under the identifier that comes next. -/
theorem wire_nextId (h : links.Sound) (hnew : ∀ id, links.get? id ≠ some (.table c)) :
    Wire (links.insert (.table c)) c True links.nextId where
  issued := h.issued_nextId _
  own id r hr := by
    rw [h.get?_insert] at hr
    split at hr
    · rename_i hid
      exact ⟨fun _ => (Option.some.inj hr).symm, fun _ => hid⟩
    · rename_i hid
      exact ⟨fun he => absurd he hid, fun he => absurd (he ▸ hr) (hnew id)⟩
  linked := by
    rw [h.get?_insert, if_pos rfl]
    exact ⟨fun _ => trivial, fun _ => rfl⟩

end

/-! ## All signals -/

/-- How a table is connected, and who is connected to it. -/
structure Wiring where
  isOpen : Bool
  calls : Nat
  itemsLink : SlotId
  bindingLink : SlotId
  grouped : Signal Receiver
  expanded : Signal Receiver
  collapsed : Signal Receiver
  layout : Signal Receiver

/-- The wiring of a table. -/
def TableEntry.wiring (e : TableEntry) : Wiring :=
  ⟨e.isOpen, e.calls, e.table.itemsLink, e.table.bindingLink, e.table.grouped, e.table.expanded,
    e.table.collapsed, e.table.layout⟩

namespace Session

/-- The sessions agree in all connections. -/
structure SameLinks (s t : Session) : Prop where
  items : t.source.itemsChanged = s.source.itemsChanged
  binding : t.source.bindingChanged = s.source.bindingChanged
  tables : t.tables.map TableEntry.wiring = s.tables.map TableEntry.wiring
  names : t.names = s.names
  listeners : t.listeners.map Listener.name = s.listeners.map Listener.name
  quiet : s.Quiet → t.Quiet

variable {s t u : Session} {c : TableId} {channel : Channel}

namespace SameLinks

theorem refl (s : Session) : SameLinks s s := ⟨rfl, rfl, rfl, rfl, rfl, id⟩

theorem trans (h : SameLinks s t) (h' : SameLinks t u) : SameLinks s u :=
  ⟨h'.items.trans h.items, h'.binding.trans h.binding, h'.tables.trans h.tables,
    h'.names.trans h.names, h'.listeners.trans h.listeners, fun hq => h'.quiet (h.quiet hq)⟩

theorem write (s : Session) (records : List LogRecord) : SameLinks s (s.write records) :=
  ⟨rfl, rfl, rfl, rfl, rfl, id⟩

theorem length_eq (h : SameLinks s t) : t.tables.length = s.tables.length := by
  simpa only [List.length_map] using congrArg List.length h.tables

theorem wiring_eq (h : SameLinks s t) (c : TableId) :
    t.tables[c]?.map TableEntry.wiring = s.tables[c]?.map TableEntry.wiring := by
  rw [← List.getElem?_map, h.tables, List.getElem?_map]

/-- An entry has one in the other session that is wired alike. -/
theorem entry (h : SameLinks s t) {e : TableEntry} (he : t.tables[c]? = some e) :
    ∃ e', s.tables[c]? = some e' ∧ e.wiring = e'.wiring := by
  have hw := h.wiring_eq c
  rw [he, Option.map_some] at hw
  obtain ⟨e', he', hwiring⟩ := Option.map_eq_some_iff.1 hw.symm
  exact ⟨e', he', hwiring.symm⟩

theorem signal_eq (h : SameLinks s t) (channel : Channel) :
    t.signal channel = s.signal channel := by
  have hsignal : ∀ (c : TableId) (f : Table → Signal Receiver) (g : Wiring → Signal Receiver),
      (∀ e : TableEntry, g e.wiring = f e.table) →
      ((t.table? c).map f).getD .empty = ((s.table? c).map f).getD .empty := by
    intro c f g hfg
    have hw := congrArg (Option.map g) (h.wiring_eq c)
    rw [Option.map_map, Option.map_map] at hw
    have hcomp : g ∘ TableEntry.wiring = f ∘ TableEntry.table := funext hfg
    rw [hcomp] at hw
    unfold table?
    rw [Option.map_map, Option.map_map, hw]
  cases channel with
  | items => exact h.items
  | binding => exact h.binding
  | grouped c => exact hsignal c Table.grouped Wiring.grouped fun _ => rfl
  | expanded c => exact hsignal c Table.expanded Wiring.expanded fun _ => rfl
  | collapsed c => exact hsignal c Table.collapsed Wiring.collapsed fun _ => rfl
  | layout c => exact hsignal c Table.layout Wiring.layout fun _ => rfl

end SameLinks

/-- A change of an entry that keeps its wiring leaves all connections. -/
theorem sameLinks_modifyEntry (c : TableId) {f : TableEntry → TableEntry}
    (hf : ∀ e, (f e).wiring = e.wiring) : SameLinks s (s.modifyEntry c f) := by
  refine ⟨rfl, rfl, ?_, rfl, rfl, id⟩
  change (s.tables.modify c f).map TableEntry.wiring = _
  refine List.ext_getElem? fun d => ?_
  rw [List.getElem?_map, List.getElem?_map, List.getElem?_modify]
  cases s.tables[d]? with
  | none => rfl
  | some e =>
    by_cases hd : c = d
    · simpa [hd] using hf e
    · simp [hd]

/-- Notices to quiet listeners leave all connections. -/
theorem sameLinks_emit (h : s.Quiet) (depth : Nat) (n : Notice) : SameLinks s (emit depth n s) := by
  have hheard := heard_emit depth n h
  refine ⟨by rw [hheard.source], by rw [hheard.source], ?_, hheard.names, hheard.listeners,
    fun _ => hheard.quiet⟩
  refine List.ext_getElem? fun c => ?_
  rw [List.getElem?_map, List.getElem?_map, hheard.tables, Option.map_map]
  refine congrArg (Option.map · _) (funext fun e => ?_)
  rw [Function.comp_apply]
  split <;> rfl

/-- The table of the signal, if there is any, has been made. -/
def Knows (s : Session) (channel : Channel) : Prop :=
  ∀ c, channel.table? = some c → c < s.tables.length

/-- Every signal is attended, and listeners are quiet. A name is known only on the signals that own
it. -/
structure Tended (owns : String → Channel → Prop) (s : Session) : Prop where
  quiet : s.Quiet
  attended : ∀ channel, s.Knows channel → Attended (s.signal channel).table
    (fun c => channel.table? = none ∧ c < s.tables.length)
    (fun name id => owns name channel ∧ s.names.get? name = some id)
    (fun number name => (s.listeners.map Listener.name)[number]? = some name)
  known : ∀ name channel id, owns name channel → s.names.get? name = some id → s.Knows channel

/-- Exactly the live tables are connected to the source, besides. -/
structure Orderly (owns : String → Channel → Prop) (s : Session) : Prop extends Tended owns s where
  items : s.EachTable fun c e =>
    Wire s.source.itemsChanged.table c e.IsLive e.table.itemsLink
  binding : s.EachTable fun c e =>
    Wire s.source.bindingChanged.table c e.IsLive e.table.bindingLink

namespace Orderly

variable {owns : String → Channel → Prop}

/-- Signals may give names up. -/
theorem mono {owns' : String → Channel → Prop} (h : s.Orderly owns)
    (hsub : ∀ name channel, owns' name channel → owns name channel) : s.Orderly owns' where
  quiet := h.quiet
  attended channel hk := (h.attended channel hk).mono (fun _ => id)
    (fun name _ hn => ⟨hsub name channel hn.1, hn.2⟩) fun _ _ => id
  known name channel id ho := h.known name channel id (hsub name channel ho)
  items := h.items
  binding := h.binding

/-- Only connections matter. -/
theorem congr (h : s.Orderly owns) (hs : SameLinks s t) : t.Orderly owns where
  quiet := hs.quiet h.quiet
  attended channel hk := by
    rw [hs.signal_eq, hs.length_eq, hs.names, hs.listeners]
    exact h.attended channel fun c hc => hs.length_eq ▸ hk c hc
  known name channel id ho hid := by
    unfold Knows
    rw [hs.length_eq]
    exact h.known name channel id ho (hs.names ▸ hid)
  items c e he := by
    obtain ⟨e', he', hw⟩ := hs.entry he
    have hwire := h.items c e' he'
    unfold TableEntry.IsLive at hwire ⊢
    rw [hs.items, show e.isOpen = e'.isOpen from congrArg Wiring.isOpen hw,
      show e.calls = e'.calls from congrArg Wiring.calls hw,
      show e.table.itemsLink = e'.table.itemsLink from congrArg Wiring.itemsLink hw]
    exact hwire
  binding c e he := by
    obtain ⟨e', he', hw⟩ := hs.entry he
    have hwire := h.binding c e' he'
    unfold TableEntry.IsLive at hwire ⊢
    rw [hs.binding, show e.isOpen = e'.isOpen from congrArg Wiring.isOpen hw,
      show e.calls = e'.calls from congrArg Wiring.calls hw,
      show e.table.bindingLink = e'.table.bindingLink from congrArg Wiring.bindingLink hw]
    exact hwire

end Orderly

/-! ## Connecting and disconnecting -/

/-- A signal is replaced for itself only. -/
theorem signal_setSignal (hk : s.Knows channel) (new : Signal Receiver) (other : Channel) :
    (s.setSignal channel new).signal other = if other = channel then new else s.signal other := by
  have htable : ∀ (c d : TableId) (f : Table → Table), (s.modifyTable c f).table? d =
      if c = d then (s.table? d).map f else s.table? d := by
    intro c d f
    by_cases hd : c = d
    · subst hd
      rw [if_pos rfl]
      change (s.tables.modify c _)[c]?.map _ = (s.tables[c]?.map _).map f
      rw [List.getElem?_modify_eq]
      cases s.tables[c]? <;> rfl
    · rw [if_neg hd]
      change (s.tables.modify c _)[d]?.map _ = _
      rw [List.getElem?_modify_ne _ _ hd]
      rfl
  have hsome : ∀ c, channel.table? = some c → ∃ t, s.table? c = some t := by
    intro c hc
    exact ⟨_, table?_eq_some_iff.2 ⟨_, List.getElem?_eq_getElem (hk c hc), rfl⟩⟩
  cases channel with
  | items | binding => cases other <;> rfl
  | grouped c | expanded c | collapsed c | layout c =>
    obtain ⟨t, ht⟩ := hsome c rfl
    cases other with
    | items | binding => rfl
    | grouped d | expanded d | collapsed d | layout d =>
      simp only [setSignal, signal, htable]
      by_cases hd : c = d
      · subst hd
        simp [ht]
      · simp [hd, Ne.symm hd]

@[simp] theorem names_setSignal (s : Session) (channel : Channel) (new : Signal Receiver) :
    (s.setSignal channel new).names = s.names := by
  cases channel <;> rfl

@[simp] theorem listeners_setSignal (s : Session) (channel : Channel) (new : Signal Receiver) :
    (s.setSignal channel new).listeners = s.listeners := by
  cases channel <;> rfl

theorem knows_items : s.Knows .items := fun c hc => absurd hc.symm (Option.some_ne_none c)

theorem knows_binding : s.Knows .binding := fun c hc => absurd hc.symm (Option.some_ne_none c)

/-- A channel that is there is known. -/
theorem knows_of_hasChannel (h : s.hasChannel channel = true) : s.Knows channel := by
  intro c hc
  unfold hasChannel at h
  rw [hc] at h
  unfold isOpen at h
  cases he : s.tables[c]? with
  | none => simp [he] at h
  | some e => exact (List.getElem?_eq_some_iff.1 he).1

/-- The signals of tables stay as they are when a further table is made. -/
theorem signal_openTable (settings : Settings) (hchannel : channel.table? = some c)
    (hc : c < s.tables.length) : (s.openTable settings).signal channel = s.signal channel := by
  have htable : (s.openTable settings).table? c = s.table? c := by
    change (s.tables ++ [_])[c]?.map _ = _
    rw [List.getElem?_append_left hc]
    rfl
  cases channel with
  | items | binding => exact absurd hchannel.symm (Option.some_ne_none c)
  | grouped | expanded | collapsed | layout =>
    obtain rfl := Option.some.inj hchannel
    simp only [signal, htable]

/-- Only the journal is connected to the signals of a table that has just been made. -/
theorem signal_openTable_self (settings : Settings)
    (hchannel : channel.table? = some s.tables.length) :
    (s.openTable settings).signal channel = (Signal.empty.connect Receiver.journal).2 := by
  have hlast : (s.openTable settings).tables[s.tables.length]? = some _ :=
    List.getElem?_concat_length
  cases channel with
  | items | binding => exact absurd hchannel.symm (Option.some_ne_none _)
  | grouped | expanded | collapsed | layout =>
    obtain rfl := Option.some.inj hchannel
    simp only [signal, table?, hlast]
    rfl

/-- Only the tables of entries have signals. -/
theorem signal_modifyEntry (c : TableId) {f : TableEntry → TableEntry}
    (htable : ∀ e, (f e).table = e.table) (channel : Channel) :
    (s.modifyEntry c f).signal channel = s.signal channel := by
  have htables : (s.modifyEntry c f).table? = s.table? := by
    funext d
    change (s.tables.modify c f)[d]?.map _ = s.tables[d]?.map _
    rw [List.getElem?_modify]
    cases s.tables[d]? with
    | none => rfl
    | some e =>
      refine congrArg some ?_
      by_cases hd : c = d
      · simpa [hd] using htable e
      · simp [hd]
  cases channel with
  | items | binding => rfl
  | grouped | expanded | collapsed | layout =>
    unfold signal
    rw [htables]

namespace Tended

variable {owns : String → Channel → Prop}

/-- A signal may be replaced by one that is attended as well. -/
theorem setSignal (h : s.Tended owns) (hk : s.Knows channel) {new : Signal Receiver}
    (hnew : Attended new.table (fun c => channel.table? = none ∧ c < s.tables.length)
      (fun name id => owns name channel ∧ s.names.get? name = some id)
      (fun number name => (s.listeners.map Listener.name)[number]? = some name)) :
    (s.setSignal channel new).Tended owns where
  quiet := by
    unfold Quiet
    rw [listeners_setSignal]
    exact h.quiet
  attended other hother := by
    rw [signal_setSignal hk, names_setSignal, listeners_setSignal, length_setSignal]
    split
    · rename_i he
      subst he
      exact hnew
    · exact h.attended other fun c hc => length_setSignal s channel new ▸ hother c hc
  known name other id ho hid := by
    unfold Knows
    rw [length_setSignal]
    exact h.known name other id ho (names_setSignal s channel new ▸ hid)

/-- Anyone but the journal may be disconnected. -/
theorem disconnect (h : s.Tended owns) (hk : s.Knows channel) {id : Option SlotId}
    (hid : ∀ i, id = some i → (s.signal channel).table.get? i ≠ some .journal) :
    (s.disconnect channel id).2.Tended owns := by
  refine h.setSignal hk ?_
  cases id with
  | none => exact h.attended channel hk
  | some i => exact (h.attended channel hk).remove (hid i rfl)

/-- Whether tables are open plays no part, and how many calls on them are running. -/
theorem modifyEntry (h : s.Tended owns) (c : TableId) {f : TableEntry → TableEntry}
    (htable : ∀ e, (f e).table = e.table) : (s.modifyEntry c f).Tended owns := by
  have hsignal : ∀ channel, (s.modifyEntry c f).signal channel = s.signal channel :=
    signal_modifyEntry c htable
  have hlength : (s.modifyEntry c f).tables.length = s.tables.length := List.length_modify ..
  refine ⟨h.quiet, fun channel hk => ?_, fun n channel id ho hid => ?_⟩
  · rw [hsignal, hlength]
    exact h.attended channel fun d hd => hlength ▸ hk d hd
  · exact fun d hd => hlength.symm ▸ h.known n channel id ho hid d hd

end Tended

namespace Orderly

variable {owns : String → Channel → Prop}

/-- A signal may be replaced by one that keeps the links of live tables. -/
theorem setSignal (h : s.Orderly owns) (hk : s.Knows channel) {new : Signal Receiver}
    (hnew : (s.setSignal channel new).Tended owns)
    (hitems : channel = .items → s.EachTable fun c e => Wire new.table c e.IsLive e.table.itemsLink)
    (hbinding : channel = .binding →
      s.EachTable fun c e => Wire new.table c e.IsLive e.table.bindingLink) :
    (s.setSignal channel new).Orderly owns where
  toTended := hnew
  items := by
    have hold : s.EachTable fun c e =>
        Wire ((s.setSignal channel new).signal .items).table c e.IsLive e.table.itemsLink := by
      rw [signal_setSignal hk]
      split
      · rename_i he
        exact hitems he.symm
      · exact h.items
    exact hold.setSignal (fun _ _ _ ht hw => by rw [ht.itemsLink]; exact hw) channel new
  binding := by
    have hold : s.EachTable fun c e =>
        Wire ((s.setSignal channel new).signal .binding).table c e.IsLive e.table.bindingLink := by
      rw [signal_setSignal hk]
      split
      · rename_i he
        exact hbinding he.symm
      · exact h.binding
    exact hold.setSignal (fun _ _ _ ht hw => by rw [ht.bindingLink]; exact hw) channel new

/-- To block a signal keeps the session orderly. -/
theorem block (h : s.Orderly owns) (hk : s.Knows channel) (on : Bool) :
    (s.block channel on).Orderly owns :=
  h.setSignal hk (h.toTended.setSignal hk (h.attended channel hk)) (fun hc => hc ▸ h.items)
    fun hc => hc ▸ h.binding

/-- What is connected under a name may be disconnected from a signal that owns the name. -/
theorem unlisten (h : s.Orderly owns) (hk : s.Knows channel) {name : String}
    (ho : owns name channel) :
    (s.disconnect channel (s.names.get? name)).2.Orderly owns := by
  have hlistener : ∀ id, s.names.get? name = some id →
      ∀ r, (s.signal channel).table.get? id = some r → ∃ number, r = .listener number :=
    fun id hid r hr => ((h.attended channel hk).named name id r ⟨ho, hid⟩ hr).imp fun _ hr => hr.1
  have htended : (s.disconnect channel (s.names.get? name)).2.Tended owns := by
    refine h.toTended.disconnect hk fun id hid hj => ?_
    obtain ⟨number, hn⟩ := hlistener id hid _ hj
    exact Receiver.noConfusion hn
  have hlink : ∀ {c : TableId} {link : SlotId} {live : Prop},
      Wire (s.signal channel).table c live link →
      Wire ((s.signal channel).disconnect (s.names.get? name)).2.table c live link := by
    intro c link live hw
    cases hid : s.names.get? name with
    | none => exact hw
    | some id =>
      refine hw.remove fun he hlive => ?_
      obtain ⟨number, hn⟩ := hlistener id hid _ (he ▸ hw.linked.2 hlive)
      exact Receiver.noConfusion hn
  refine h.setSignal hk htended (fun hc c e he => ?_) fun hc c e he => ?_
  · subst hc
    exact hlink (h.items c e he)
  · subst hc
    exact hlink (h.binding c e he)

/-- A quiet listener may be connected under a name, which belongs to no other signal from then on.
-/
theorem listen (h : s.Orderly owns) (hk : s.Knows channel) {name : String}
    {owns' : String → Channel → Prop}
    (ho : ∀ n other, owns' n other → if name = n then channel = other else owns n other)
    (times : Nat) : (s.listen name channel [] times).Orderly owns' := by
  let number := s.listeners.length
  let listener : Listener := ⟨name, [], times⟩
  have hcalled : ∀ (k : Nat) (n : String), (s.listeners.map Listener.name)[k]? = some n →
      ((s.listeners ++ [listener]).map Listener.name)[k]? = some n := by
    intro k n hn
    rw [List.map_append, List.getElem?_append_left (List.getElem?_eq_some_iff.1 hn).1]
    exact hn
  have hlast : ((s.listeners ++ [listener]).map Listener.name)[number]? = some name := by
    rw [List.getElem?_map, List.getElem?_concat_length]
    rfl
  have hconnected : (s.connect channel (.listener number)).2.Orderly owns := by
    refine h.setSignal hk (h.toTended.setSignal hk ((h.attended channel hk).insert
      Receiver.noConfusion fun _ => Receiver.noConfusion)) (fun hc c e he => ?_) fun hc c e he => ?_
    · subst hc
      exact (h.items c e he).insert (h.attended _ hk).sound Receiver.noConfusion
    · subst hc
      exact (h.binding c e he).insert (h.attended _ hk).sound Receiver.noConfusion
  have hlisteners : (s.listen name channel [] times).listeners =
      s.listeners ++ [listener] := by
    change (s.connect channel (.listener number)).2.listeners ++ _ = _
    rw [show (s.connect channel (.listener number)).2.listeners = s.listeners from
      listeners_setSignal s channel _]
  have hnames : ∀ n, (s.listen name channel [] times).names.get? n =
      if name = n then some (s.signal channel).table.nextId else s.names.get? n := by
    intro n
    change ((s.connect channel (.listener number)).2.names.insert name _).get? n = _
    rw [OrderedMap.get?_insert, show (s.connect channel (.listener number)).2.names = s.names from
      names_setSignal s channel _]
  have hlength : (s.listen name channel [] times).tables.length = s.tables.length :=
    length_setSignal s channel _
  have hold : ∀ n other id, owns' n other → (s.listen name channel [] times).names.get? n = some id →
      name = n ∧ channel = other ∧ id = (s.signal channel).table.nextId ∨
        owns n other ∧ s.names.get? n = some id := by
    intro n other id ho' hid
    have hn := ho n other ho'
    rw [hnames] at hid
    split at hid
    · rename_i hname
      rw [if_pos hname] at hn
      exact .inl ⟨hname, hn, (Option.some.inj hid).symm⟩
    · rename_i hname
      rw [if_neg hname] at hn
      exact .inr ⟨hn, hid⟩
  refine ⟨⟨fun l hl => ?_, fun other hother => ?_, fun n other id ho' hid => ?_⟩, hconnected.items,
    hconnected.binding⟩
  · rw [hlisteners] at hl
    rcases List.mem_append.1 hl with hl | hl
    · exact h.quiet l hl
    · rw [List.mem_singleton.1 hl]
  · have hother' : s.Knows other := fun c hc => hlength ▸ hother c hc
    have hsignal : (s.listen name channel [] times).signal other = _ :=
      signal_setSignal hk _ other
    rw [hsignal, hlisteners, hlength]
    split
    · rename_i he
      subst he
      refine (h.attended other hother').listen (fun n id hn => ?_) hcalled hlast
      rcases hold n other id hn.1 hn.2 with ⟨hname, -, hid⟩ | hn
      · exact .inr ⟨hname.symm, hid⟩
      · exact .inl hn
    · rename_i he
      refine (h.attended other hother').mono (fun _ => id) (fun n id hn => ?_) hcalled
      exact (hold n other id hn.1 hn.2).resolve_left fun hc => he hc.2.1.symm
  · have hknown : s.Knows other := by
      rcases hold n other id ho' hid with ⟨-, rfl, -⟩ | hn
      · exact hk
      · exact h.known n other id hn.1 hn.2
    exact fun c hc => hlength.symm ▸ hknown c hc

/-- Calls may begin and return, and tables may be closed, as long as the same tables are live. -/
theorem modifyLife (h : s.Orderly owns) (c : TableId) {f : TableEntry → TableEntry}
    (htable : ∀ e, (f e).table = e.table)
    (hlive : ∀ e, s.tables[c]? = some e → ((f e).IsLive ↔ e.IsLive)) :
    (s.modifyEntry c f).Orderly owns where
  toTended := h.toTended.modifyEntry c htable
  items := by
    refine h.items.modifyEntry fun e he => ?_
    rw [htable]
    exact (h.items c e he).congr (hlive e he).symm
  binding := by
    refine h.binding.modifyEntry fun e he => ?_
    rw [htable]
    exact (h.binding c e he).congr (hlive e he).symm

/-- A table that calls leave, or that is closed, is disconnected unless it stays live. -/
theorem retire (h : s.Orderly owns) (c : TableId) {f : TableEntry → TableEntry}
    (htable : ∀ e, (f e).table = e.table)
    (hlive : ∀ e, s.tables[c]? = some e → (f e).IsLive → e.IsLive) :
    (release c (s.modifyEntry c f)).Orderly owns := by
  unfold release
  split
  · rename_i e' he'
    change (s.tables.modify c f)[c]? = some e' at he'
    rw [List.getElem?_modify_eq] at he'
    obtain ⟨e, he, rfl⟩ := Option.map_eq_some_iff.1 he'
    split
    · rename_i hl
      refine h.modifyLife c htable fun e' he' => ?_
      obtain rfl : e = e' := Option.some.inj (he.symm.trans he')
      exact ⟨fun _ => hlive e he hl, fun _ => hl⟩
    · rename_i hl
      have hjournal : ∀ {links : SlotTable Receiver} {link : SlotId} {live : Prop},
          Wire links c live link → ∀ i, some link = some i → links.get? i ≠ some .journal := by
        intro links link live hw i hi hj
        exact Receiver.noConfusion ((hw.own _ _ hj).1 (Option.some.inj hi).symm)
      have hwires : ∀ {links : SlotTable Receiver} {link : TableEntry → SlotId},
          (∀ e : TableEntry, link (f e) = link e) →
          s.EachTable (fun c e => Wire links c e.IsLive (link e)) →
          (s.modifyEntry c f).EachTable fun d e' =>
            Wire (links.remove (link e)) d e'.IsLive (link e') := by
        intro links link hlink hw
        refine eachTable_modifyEntry (fun e' he' => ?_) fun d e' hd he' => ?_
        · obtain rfl : e = e' := Option.some.inj (he.symm.trans he')
          rw [hlink]
          exact (hw c e he).unlink.congr ⟨False.elim, hl⟩
        · refine (hw d e' he').remove fun hsame hlive' => hd ?_
          have hown := (hw c e he).own _ _ ((hw d e' he').linked.2 hlive')
          exact Receiver.table.inj (hown.1 hsame)
      rw [htable]
      refine ⟨((h.toTended.modifyEntry c htable).disconnect knows_items
        (hjournal (h.items c e he))).disconnect knows_binding (hjournal (h.binding c e he)), ?_, ?_⟩
      · exact hwires (fun e => congrArg Table.itemsLink (htable e)) h.items
      · exact hwires (fun e => congrArg Table.bindingLink (htable e)) h.binding
  · rename_i hnone
    refine h.modifyLife c htable fun e he => ?_
    rw [getElem?_modifyEntry he] at hnone
    exact absurd hnone (Option.some_ne_none _)

/-- A table may be made. -/
theorem openTable (h : s.Orderly owns) (settings : Settings) :
    (s.openTable settings).Orderly owns := by
  let n := s.tables.length
  have hlength : (s.openTable settings).tables.length = n + 1 := List.length_append
  have hlinks : ∀ channel, s.Knows channel → ∀ id,
      (s.signal channel).table.get? id ≠ some (.table n) :=
    fun channel hk id hid => Nat.lt_irrefl n ((h.attended channel hk).tables id n hid).2
  have hmono : ∀ channel, s.Knows channel → Attended (s.signal channel).table
      (fun c => channel.table? = none ∧ c < (s.openTable settings).tables.length)
      (fun name id => owns name channel ∧ s.names.get? name = some id)
      (fun number name => (s.listeners.map Listener.name)[number]? = some name) := by
    rw [hlength]
    exact fun channel hk => (h.attended channel hk).mono
      (fun c hc => ⟨hc.1, Nat.lt_succ_of_lt hc.2⟩) (fun _ _ => id) fun _ _ => id
  have hwires : ∀ {links : SlotTable Receiver} {link : TableEntry → SlotId} {e : TableEntry},
      links.Sound → (∀ id, links.get? id ≠ some (.table n)) → link e = links.nextId → e.IsLive →
      s.EachTable (fun c e => Wire links c e.IsLive (link e)) →
      EachTable (fun c e => Wire (links.insert (.table n)) c e.IsLive (link e))
        { s with tables := s.tables ++ [e] } := by
    intro links link e hsound hnew hlink hlive hw
    refine EachTable.append (fun c e he => (hw c e he).insert hsound fun hc => ?_) ?_
    · obtain rfl := Receiver.table.inj hc
      exact Nat.lt_irrefl n (List.getElem?_eq_some_iff.1 he).1
    · rw [hlink]
      exact (wire_nextId hsound hnew).congr ⟨fun _ => hlive, fun _ => trivial⟩
  have hfresh : ∀ {channel : Channel}, channel.table? = some n →
      ((s.openTable settings).signal channel).table = SlotTable.empty.insert .journal :=
    fun hchannel => congrArg Signal.table (signal_openTable_self settings hchannel)
  refine ⟨⟨h.quiet, fun channel hk => ?_, fun name channel id ho hid c hc => ?_⟩, ?_, ?_⟩
  · cases hchannel : channel.table? with
    | none =>
      have hk' : s.Knows channel := fun c hc => absurd (hchannel.symm.trans hc).symm
        (Option.some_ne_none c)
      have hinserted := (hmono channel hk').insert (r := .table n) Receiver.noConfusion fun c hc =>
        ⟨hchannel, by rw [hlength, ← Receiver.table.inj hc]; exact Nat.lt_succ_self n⟩
      cases channel with
      | items | binding => exact hinserted
      | grouped | expanded | collapsed | layout => nomatch hchannel
    | some c =>
      rw [← hchannel]
      rcases Nat.lt_succ_iff_lt_or_eq.1 (hlength ▸ hk c hchannel) with hc | rfl
      · rw [signal_openTable settings hchannel hc]
        exact hmono channel fun d hd => Option.some.inj (hchannel.symm.trans hd) ▸ hc
      · rw [hfresh hchannel]
        refine attended_journal fun name id hknown => ?_
        exact Nat.lt_irrefl n (h.known name channel id hknown.1 hknown.2 n hchannel)
  · rw [hlength]
    exact Nat.lt_succ_of_lt (h.known name channel id ho hid c hc)
  · exact hwires (h.attended .items knows_items).sound (hlinks .items knows_items) rfl (.inl rfl)
      h.items
  · exact hwires (h.attended .binding knows_binding).sound (hlinks .binding knows_binding) rfl
      (.inl rfl) h.binding

/-- A session starts orderly. -/
theorem ofStore (owns : String → Channel → Prop) (store : ItemStore) (log : List LogRecord) :
    (Session.ofStore store log).Orderly owns := by
  refine ⟨⟨fun l hl => absurd hl List.not_mem_nil, fun channel hk => ?_, fun name channel id _ hid =>
    absurd hid.symm (Option.some_ne_none id)⟩, fun c e he => ?_, fun c e he => ?_⟩
  · have hjournal : ((Session.ofStore store log).signal channel).table =
        SlotTable.empty.insert .journal := by
      cases channel with
      | items | binding => rfl
      | grouped c | expanded c | collapsed c | layout c =>
        exact absurd (hk c rfl) (Nat.not_lt_zero c)
    rw [hjournal]
    exact attended_journal fun name id hid => absurd hid.2.symm (Option.some_ne_none id)
  · exact absurd he.symm (Option.some_ne_none e)
  · exact absurd he.symm (Option.some_ne_none e)

end Orderly

end Session

end GroupedRows
