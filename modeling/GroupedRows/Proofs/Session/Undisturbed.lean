import GroupedRows.Proofs.Session.DeafTables

/-!
# Undisturbed sessions

In an undisturbed session all tables are open and connected to both signals of the
source, none of these is blocked, and listeners do nothing. So a notice of the source
makes every table stale, and a notice of a table changes nothing.
-/

namespace GroupedRows

/-- The table is open, its links name it, and no table is connected to its own signals. -/
structure TableEntry.Wired (items binding : SlotTable Receiver) (c : TableId) (e : TableEntry) :
    Prop where
  isOpen : e.isOpen = true
  items : items.get? e.table.itemsLink = some (.table c)
  binding : binding.get? e.table.bindingLink = some (.table c)
  deaf : e.table.Deaf

/-- The entries agree in what connects them. -/
structure TableEntry.WiredAlike (e e' : TableEntry) : Prop where
  isOpen : e'.isOpen = e.isOpen
  itemsLink : e'.table.itemsLink = e.table.itemsLink
  bindingLink : e'.table.bindingLink = e.table.bindingLink
  signals : e'.table.signals = e.table.signals

/-- Whether a table is wired depends on what connects it. -/
theorem TableEntry.Wired.congr {items binding : SlotTable Receiver} {c : TableId}
    {e e' : TableEntry} (h : e.Wired items binding c) (he : e.WiredAlike e') :
    e'.Wired items binding c where
  isOpen := he.isOpen.trans h.isOpen
  items := he.itemsLink ▸ h.items
  binding := he.bindingLink ▸ h.binding
  deaf := by
    unfold Table.Deaf
    rw [he.signals]
    exact h.deaf

namespace Session

/-- All tables hear of all changes, and nobody else acts. -/
structure Undisturbed (s : Session) : Prop where
  quiet : s.Quiet
  itemsOpen : s.source.itemsChanged.blocked = false
  bindingOpen : s.source.bindingChanged.blocked = false
  itemsSound : s.source.itemsChanged.table.Sound
  bindingSound : s.source.bindingChanged.table.Sound
  wired : s.EachTable
    (TableEntry.Wired s.source.itemsChanged.table s.source.bindingChanged.table)

namespace Undisturbed

variable {s s' : Session} {c : TableId}

/-- A session without tables is undisturbed. -/
theorem ofStore (store : ItemStore) (log : List LogRecord) : (ofStore store log).Undisturbed where
  quiet _ hl := absurd hl List.not_mem_nil
  itemsOpen := rfl
  bindingOpen := rfl
  itemsSound := SlotTable.sound_empty.insert Receiver.journal
  bindingSound := SlotTable.sound_empty.insert Receiver.journal
  wired _ _ he := absurd he.symm (Option.some_ne_none _)

/-- Items, binding and what is noted play no part. -/
theorem congr (h : s.Undisturbed) (hquiet : s'.Quiet)
    (hitems : s'.source.itemsChanged = s.source.itemsChanged)
    (hbinding : s'.source.bindingChanged = s.source.bindingChanged)
    (htables : s'.tables = s.tables) : s'.Undisturbed where
  quiet := hquiet
  itemsOpen := hitems ▸ h.itemsOpen
  bindingOpen := hbinding ▸ h.bindingOpen
  itemsSound := hitems ▸ h.itemsSound
  bindingSound := hbinding ▸ h.bindingSound
  wired := by
    unfold EachTable
    rw [hitems, hbinding, htables]
    exact h.wired

/-- A change that leaves what connects a table leaves the session undisturbed. -/
theorem modifyEntry (h : s.Undisturbed) {f : TableEntry → TableEntry}
    (hf : ∀ e : TableEntry, e.WiredAlike (f e)) : (s.modifyEntry c f).Undisturbed :=
  ⟨h.quiet, h.itemsOpen, h.bindingOpen, h.itemsSound, h.bindingSound,
    h.wired.modifyEntry fun e he => (h.wired c e he).congr (hf e)⟩

/-- An open table is not disconnected. -/
theorem release_eq (h : s.Undisturbed) (c : TableId) : s.release c = s := by
  unfold release
  split
  · rename_i e he
    exact if_pos (.inl (h.wired c e he).isOpen)
  · rfl

/-- In an undisturbed session every table is open. -/
theorem isOpen_eq (h : s.Undisturbed) (c : TableId) :
    s.isOpen c = decide (c < s.tables.length) := by
  unfold isOpen
  cases he : s.tables[c]? with
  | none => simpa using he
  | some e =>
    have hlt := (List.getElem?_eq_some_iff.1 he).1
    simp [(h.wired c e he).isOpen, hlt]

/-- In an undisturbed session every table has its channels. -/
theorem hasChannel_eq (h : s.Undisturbed) (channel : Channel) :
    s.hasChannel channel = channel.table?.all fun c => decide (c < s.tables.length) := by
  unfold hasChannel
  split
  · rename_i hc
    simp [hc]
  · rename_i c hc
    simp [hc, h.isOpen_eq]

/-! ## Who receives notices -/

/-- In an undisturbed session no table is connected to one. -/
theorem deaf (h : s.Undisturbed) : s.Deaf := h.wired.mono fun _ _ he => he.deaf

/-- Every table is among the receivers of a notice of the source. -/
theorem mem_audience (h : s.Undisturbed) {channel : Channel} (hchannel : channel.table? = none)
    {e : TableEntry} (he : s.tables[c]? = some e) : .table c ∈ (s.signal channel).audience := by
  have hsignal : (s.signal channel).blocked = false ∧
      .table c ∈ (s.signal channel).table.values := by
    cases channel with
    | items => exact ⟨h.itemsOpen, SlotTable.mem_values_of_get? (h.wired c e he).items⟩
    | binding => exact ⟨h.bindingOpen, SlotTable.mem_values_of_get? (h.wired c e he).binding⟩
    | grouped | expanded | collapsed | layout => simp [Channel.table?] at hchannel
  unfold Signal.audience
  rw [hsignal.1]
  exact hsignal.2

/-- A notice of a table changes neither source nor tables. -/
theorem emit_table (h : s.Undisturbed) (depth : Nat) {n : Notice} {d : TableId}
    (hd : n.channel.table? = some d) :
    (emit depth n s).source = s.source ∧ (emit depth n s).tables = s.tables ∧
      (emit depth n s).Undisturbed := by
  have hheard := heard_emit depth n h.quiet
  obtain ⟨hsource, htables⟩ := Deaf.emit_table h.deaf h.quiet depth hd
  exact ⟨hsource, htables,
    h.congr hheard.quiet (by rw [hsource]) (by rw [hsource]) htables⟩

/-- A notice of the source makes every table stale. -/
theorem emit_source (h : s.Undisturbed) (depth : Nat) {n : Notice}
    (hn : n.channel.table? = none) :
    (emit depth n s).source = s.source ∧
      (emit depth n s).tables = s.tables.map TableEntry.stale ∧ (emit depth n s).Undisturbed := by
  have hheard := heard_emit depth n h.quiet
  have htables : (emit depth n s).tables = s.tables.map TableEntry.stale := by
    refine List.ext_getElem? fun c => ?_
    rw [hheard.tables, List.getElem?_map]
    cases he : s.tables[c]? with
    | none => rfl
    | some e => simp [h.mem_audience hn he]
  refine ⟨hheard.source, htables, ⟨hheard.quiet, ?_, ?_, ?_, ?_, ?_⟩⟩
  · rw [hheard.source]
    exact h.itemsOpen
  · rw [hheard.source]
    exact h.bindingOpen
  · rw [hheard.source]
    exact h.itemsSound
  · rw [hheard.source]
    exact h.bindingSound
  · intro c e he
    rw [htables, List.getElem?_map] at he
    obtain ⟨e', he', rfl⟩ := Option.map_eq_some_iff.1 he
    rw [hheard.source]
    exact (h.wired c e' he').congr ⟨rfl, rfl, rfl, rfl⟩

/-! ## Connections -/

/-- A further receiver of the source leaves all links as they are. -/
theorem get?_insert {links : SlotTable Receiver} (hsound : links.Sound) {r r' : Receiver}
    {id : SlotId} (h : links.get? id = some r) : (links.insert r').get? id = some r := by
  have hne : id ≠ links.nextId := by
    rintro rfl
    rw [hsound.get?_nextId] at h
    exact absurd h.symm (Option.some_ne_none r)
  rw [hsound.get?_insert, if_neg hne, h]

/-- The signal of a table may be replaced by one to which no table is connected. -/
theorem setSignal (h : s.Undisturbed) {channel : Channel} (hchannel : channel.table? ≠ none)
    {new : Signal Receiver} (hnew : ∀ d, .table d ∉ new.table.values) :
    (s.setSignal channel new).Undisturbed := by
  have hdeaf : (s.setSignal channel new).Deaf := Deaf.setSignal h.deaf fun _ => hnew
  have hwired : (s.setSignal channel new).EachTable fun c e => e.isOpen = true ∧
      s.source.itemsChanged.table.get? e.table.itemsLink = some (.table c) ∧
      s.source.bindingChanged.table.get? e.table.bindingLink = some (.table c) := by
    refine EachTable.setSignal (fun c e t ht he => ?_)
      (h.wired.mono fun c e he => ⟨he.isOpen, he.items, he.binding⟩) channel new
    rw [ht.itemsLink, ht.bindingLink]
    exact he
  cases channel with
  | items | binding => exact absurd rfl hchannel
  | grouped | expanded | collapsed | layout =>
    refine ⟨h.quiet, h.itemsOpen, h.bindingOpen, h.itemsSound, h.bindingSound, fun c e he => ?_⟩
    obtain ⟨hopen, hitems, hbinding⟩ := hwired c e he
    exact ⟨hopen, hitems, hbinding, hdeaf c e he⟩

/-- A listener may connect to any signal, and a table to those of the source. -/
theorem connect (h : s.Undisturbed) (channel : Channel) (r : Receiver)
    (hr : channel.table? ≠ none → ∀ d, r ≠ .table d) :
    (s.connect channel r).2.Undisturbed := by
  by_cases hc : channel.table? = none
  · cases channel with
    | items =>
      exact ⟨h.quiet, h.itemsOpen, h.bindingOpen, h.itemsSound.insert r, h.bindingSound,
        h.wired.mono fun c e he =>
          ⟨he.isOpen, get?_insert h.itemsSound he.items, he.binding, he.deaf⟩⟩
    | binding =>
      exact ⟨h.quiet, h.itemsOpen, h.bindingOpen, h.itemsSound, h.bindingSound.insert r,
        h.wired.mono fun c e he =>
          ⟨he.isOpen, he.items, get?_insert h.bindingSound he.binding, he.deaf⟩⟩
    | grouped | expanded | collapsed | layout => simp [Channel.table?] at hc
  · exact h.setSignal hc (Deaf.not_mem_connect h.deaf hc (hr hc))

/-- A new table hears of all changes, too. -/
theorem openTable (h : s.Undisturbed) (settings : Settings) :
    (s.openTable settings).Undisturbed := by
  have hc := (h.connect .items (.table s.tables.length) (by simp [Channel.table?])).connect
    .binding (.table s.tables.length) (by simp [Channel.table?])
  have hdeaf : (s.openTable settings).Deaf := Deaf.openTable h.deaf settings
  refine ⟨hc.quiet, hc.itemsOpen, hc.bindingOpen, hc.itemsSound, hc.bindingSound,
    hc.wired.append ⟨rfl, ?_, ?_, hdeaf _ _ List.getElem?_concat_length⟩⟩
  · change (s.source.itemsChanged.table.insert (.table s.tables.length)).get?
      s.source.itemsChanged.table.nextId = some (.table s.tables.length)
    rw [h.itemsSound.get?_insert, if_pos rfl]
  · change (s.source.bindingChanged.table.insert (.table s.tables.length)).get?
      s.source.bindingChanged.table.nextId = some (.table s.tables.length)
    rw [h.bindingSound.get?_insert, if_pos rfl]

end Undisturbed

end Session

end GroupedRows
