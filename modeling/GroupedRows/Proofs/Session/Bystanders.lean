import GroupedRows.Proofs.Session.Alone

/-!
# What others leave alone

Steps on other tables leave what concerns a table as it is: its entry and signals, the
items and the binding of the source, and what is connected under the names of its signals.
So do steps on their signals. Connections are told apart by identifiers that are only
good on one signal, so this takes that no name is given up on a signal that does not own it.
-/

namespace GroupedRows

open Call Session

namespace Session

variable {owns : String → Channel → Prop} {a b c : TableId} {made : Nat} {s s' t t' : Session}
  {channel : Channel} {name name' : String}

/-! ## What happens to connections -/

/-- A name is connected if it has an identifier that names a receiver. -/
theorem connected_eq (s : Session) (name : String) (channel : Channel) :
    s.connected name channel =
      ((s.names.get? name).bind (s.signal channel).table.get?).isSome := by
  unfold connected disconnect
  cases s.names.get? name <;> rfl

/-- What a name is known under is given away. -/
theorem Orderly.issued (h : s.Orderly owns) (ho : owns name channel) {id : SlotId}
    (hid : s.names.get? name = some id) : (s.signal channel).table.Issued id :=
  (h.attended channel (h.known name channel id ho hid)).issued name id ⟨ho, hid⟩

/-- What is connected under somebody's own name is a listener of this name. -/
theorem Orderly.named (h : s.Orderly owns) (ho : owns name channel) {id : SlotId}
    (hid : s.names.get? name = some id) {r : Receiver}
    (hr : (s.signal channel).table.get? id = some r) :
    ∃ number, r = .listener number ∧ (s.listeners.map Listener.name)[number]? = some name :=
  (h.attended channel (h.known name channel id ho hid)).named name id r ⟨ho, hid⟩ hr

/-- Where somebody connects, all names keep what they name. -/
theorem Orderly.get?_insert (h : s.Orderly owns) (ho : owns name channel)
    (r : Receiver) : (s.names.get? name).bind ((s.signal channel).table.insert r).get? =
      (s.names.get? name).bind (s.signal channel).table.get? := by
  cases hid : s.names.get? name with
  | none => rfl
  | some id =>
    exact (h.attended channel (h.known name channel id ho hid)).sound.get?_insert_of_issued r
      (h.issued ho hid)

/-- A further listener is connected under its name, and other names keep what they name. -/
theorem Orderly.connected_listen (h : s.Orderly owns) (hk : s.Knows channel) (times : Nat)
    {channel' : Channel} (ho : if name = name' then channel = channel' else owns name' channel') :
    (s.listen name channel [] times).connected name' channel' =
      if name = name' then true else s.connected name' channel' := by
  have hnames : (s.listen name channel [] times).names.get? name' =
      if name = name' then some (s.signal channel).table.nextId else s.names.get? name' := by
    change ((s.connect channel _).2.names.insert name _).get? name' = _
    rw [OrderedMap.get?_insert, show (s.connect channel _).2.names = s.names from
      names_setSignal s channel _]
  have hsignal : (s.listen name channel [] times).signal channel' = _ :=
    signal_setSignal hk _ channel'
  rw [connected_eq, connected_eq, hnames, hsignal]
  split at ho
  · rename_i hname
    subst ho
    have hsound := (h.attended channel hk).sound
    rw [if_pos hname, if_pos hname, if_pos rfl, Option.bind_some]
    change (((s.signal channel).table.insert _).get? _).isSome = true
    rw [hsound.get?_insert, if_pos rfl]
    rfl
  · rename_i hname
    rw [if_neg hname, if_neg hname]
    split
    · rename_i hc
      subst hc
      exact congrArg Option.isSome (h.get?_insert ho _)
    · rfl

/-- What is disconnected under a name is connected no more, and other names keep what they name: no
two of them are connected under one identifier, since this would name a listener of each. -/
theorem Orderly.connected_unlisten (h : s.Orderly owns) (hk : s.Knows channel)
    (ho : owns name channel) {channel' : Channel} (ho' : owns name' channel') :
    (s.disconnect channel (s.names.get? name)).2.connected name' channel' =
      if name = name' ∧ channel' = channel then false else s.connected name' channel' := by
  have hnames : (s.disconnect channel (s.names.get? name)).2.names = s.names :=
    names_setSignal s channel _
  have hsignal : (s.disconnect channel (s.names.get? name)).2.signal channel' = _ :=
    signal_setSignal hk _ channel'
  rw [connected_eq, connected_eq, hnames, hsignal]
  by_cases hc : channel' = channel
  · subst hc
    rw [if_pos rfl]
    by_cases hname : name = name'
    · subst hname
      rw [if_pos ⟨rfl, rfl⟩]
      cases hid : s.names.get? name with
      | none => rfl
      | some id =>
        change (((s.signal channel').table.remove id).get? id).isSome = false
        rw [SlotTable.get?_remove, if_pos rfl]
        rfl
    · rw [if_neg fun h => hname h.1]
      cases hid : s.names.get? name with
      | none => rfl
      | some id =>
        cases hid' : s.names.get? name' with
        | none => rfl
        | some id' =>
          change (((s.signal channel').table.remove id).get? id').isSome =
            ((s.signal channel').table.get? id').isSome
          rw [SlotTable.get?_remove]
          split
          · rename_i hsame
            subst hsame
            cases hr : (s.signal channel').table.get? id' with
            | none => rfl
            | some r =>
              obtain ⟨k, rfl, hk⟩ := h.named ho hid hr
              obtain ⟨k', hk', hn⟩ := h.named ho' hid' hr
              obtain rfl := Receiver.listener.inj hk'
              exact absurd (Option.some.inj (hk.symm.trans hn)) hname
          · rfl
  · rw [if_neg hc, if_neg fun h => hc h.2]

/-- What a name is connected under is no table's link. -/
theorem Orderly.get?_remove_link (h : s.Orderly owns) (ho : owns name channel)
    {live : Prop} {link : SlotId} (hw : Wire (s.signal channel).table c live link) :
    ((s.names.get? name).bind ((s.signal channel).table.remove link).get?).isSome =
      ((s.names.get? name).bind (s.signal channel).table.get?).isSome := by
  cases hid : s.names.get? name with
  | none => rfl
  | some id =>
    rw [Option.bind_some, Option.bind_some, SlotTable.get?_remove]
    split
    · rename_i hsame
      subst hsame
      cases hr : (s.signal channel).table.get? id with
      | none => rfl
      | some r =>
        obtain ⟨k, rfl, -⟩ := h.named ho hid hr
        exact Receiver.noConfusion ((hw.own _ _ hr).1 rfl)
    · rfl

/-- A table that is no longer live takes no named connection with it. -/
theorem Orderly.connected_retire (h : s.Orderly owns) (c : TableId) {f : TableEntry → TableEntry}
    (htable : ∀ e, (f e).table = e.table) (ho : owns name channel) :
    (release c (s.modifyEntry c f)).connected name channel = s.connected name channel := by
  have hkept : (s.modifyEntry c f).connected name channel = s.connected name channel := by
    rw [connected_eq, connected_eq, signal_modifyEntry c htable]
    rfl
  unfold release
  split
  · rename_i e' he'
    change (s.tables.modify c f)[c]? = some e' at he'
    rw [List.getElem?_modify_eq] at he'
    obtain ⟨e, he, rfl⟩ := Option.map_eq_some_iff.1 he'
    split
    · exact hkept
    · rw [htable]
      rw [connected_eq, connected_eq] at hkept ⊢
      cases channel with
      | items => exact h.get?_remove_link ho (h.items c e he)
      | binding => exact h.get?_remove_link ho (h.binding c e he)
      | grouped | expanded | collapsed | layout => exact hkept
  · exact hkept

/-- A release replaces at most the signals of the source. -/
theorem release_eq (s : Session) (c : TableId) : ∃ itemsChanged bindingChanged,
    s.release c = s.modifySource ({ · with itemsChanged, bindingChanged }) := by
  unfold release
  split
  · split
    · exact ⟨_, _, rfl⟩
    · exact ⟨_, _, rfl⟩
  · exact ⟨_, _, rfl⟩

/-- The signals of tables stay as they are when a table is no longer live. -/
theorem signal_retire (c : TableId) {f : TableEntry → TableEntry}
    (htable : ∀ e, (f e).table = e.table) {d : TableId} (hchannel : channel.table? = some d) :
    (release c (s.modifyEntry c f)).signal channel = s.signal channel := by
  have hkept := signal_modifyEntry (s := s) c htable channel
  unfold release
  split
  · split
    · exact hkept
    · cases channel with
      | items | binding => exact absurd hchannel.symm (Option.some_ne_none d)
      | grouped | expanded | collapsed | layout => exact hkept
  · exact hkept

/-- A release leaves blocked signals blocked and others open. -/
theorem blocked_retire (c : TableId) {f : TableEntry → TableEntry}
    (htable : ∀ e, (f e).table = e.table) (channel : Channel) :
    ((release c (s.modifyEntry c f)).signal channel).blocked = (s.signal channel).blocked := by
  cases hchannel : channel.table? with
  | some d => rw [signal_retire c htable hchannel]
  | none =>
    have hkept := congrArg Signal.blocked (signal_modifyEntry (s := s) c htable channel)
    unfold release
    split
    · split
      · exact hkept
      · cases channel with
        | items | binding => rfl
        | grouped | expanded | collapsed | layout => nomatch hchannel
    · exact hkept

/-- A table that is made takes part in no named connection. -/
theorem Orderly.connected_openTable (h : s.Orderly owns) (settings : Settings)
    (ho : owns name channel) :
    (s.openTable settings).connected name channel = s.connected name channel := by
  rw [connected_eq, connected_eq]
  change ((s.names.get? name).bind ((s.openTable settings).signal channel).table.get?).isSome = _
  cases hchannel : channel.table? with
  | none =>
    cases channel with
    | items | binding => exact congrArg Option.isSome (h.get?_insert ho _)
    | grouped | expanded | collapsed | layout => nomatch hchannel
  | some c =>
    cases hid : s.names.get? name with
    | none => rfl
    | some id => rw [signal_openTable settings hchannel (h.known name channel id ho hid c hchannel)]

/-- A call on a table that begins leaves all signals. -/
theorem signal_enter (s : Session) (c : TableId) (channel : Channel) :
    (s.enter c).signal channel = s.signal channel := by
  refine signal_modifyEntry c (fun e => ?_) channel
  rfl

/-- A table that is made leaves the signals of all other tables. -/
theorem signal_openTable_of_ne (settings : Settings) (hchannel : channel.table? = some c)
    (hc : c ≠ s.tables.length) : (s.openTable settings).signal channel = s.signal channel := by
  have hlength : (s.openTable settings).tables.length = s.tables.length + 1 := List.length_append
  by_cases hlt : c < s.tables.length
  · exact signal_openTable settings hchannel hlt
  · rw [signal_of_not_knows fun hk => hlt (hk c hchannel), signal_of_not_knows fun hk => ?_]
    have hlt' := hk c hchannel
    rw [hlength] at hlt'
    exact (Nat.lt_succ_iff_lt_or_eq.1 hlt').elim hlt hc

/-- Whoever connects to the source does not block it. -/
theorem blocked_openTable (settings : Settings) (hchannel : channel.table? = none) :
    ((s.openTable settings).signal channel).blocked = (s.signal channel).blocked := by
  cases channel with
  | items | binding => rfl
  | grouped | expanded | collapsed | layout => nomatch hchannel

/-! ## Other tables -/

/-- The session is orderly afterwards and has as many tables, and all stays that concerns the
table. -/
structure Passed (owns : String → Channel → Prop) (a : TableId) (s t : Session) : Prop where
  orderly : t.Orderly owns
  made : t.tables.length = s.tables.length
  same : SameFor owns a s t

theorem Passed.trans {u : Session} (h : Passed owns a s t) (h' : Passed owns a t u) :
    Passed owns a s u :=
  ⟨h'.orderly, h'.made.trans h.made, h.same.trans h'.same⟩

theorem Orderly.passed (h : s.Orderly owns) : Passed owns a s s := ⟨h, rfl, .refl s⟩

/-- From an orderly session, whatever avoids a table passes everything on. -/
theorem Avoided.passed (h : Avoided owns a s t) (hs : s.Orderly owns) : Passed owns a s t :=
  ⟨hs.congr h.1, h.1.length_eq, h.2⟩

/-- Calls on an open table may begin. -/
theorem Orderly.enter (h : s.Orderly owns) (hopen : s.isOpen b = true) :
    (s.enter b).Orderly owns := by
  refine h.modifyLife b (fun _ => rfl) fun e he => ?_
  unfold isOpen at hopen
  rw [he, Option.any_some] at hopen
  exact iff_of_true (.inl hopen) (.inl hopen)

/-- So may they on another table. -/
theorem Orderly.passed_enter (h : s.Orderly owns) (hb : b ≠ a) (hopen : s.isOpen b = true) :
    Passed owns a s (s.enter b) where
  orderly := h.enter hopen
  made := List.length_modify ..
  same :=
    { store := rfl
      binding := rfl
      entry := congrArg (Option.map _) (List.getElem?_modify_ne _ _ hb)
      blocked := fun line => by rw [signal_enter]
      counted := fun line _ => by rw [signal_enter]
      connected := fun name line _ => by
        rw [connected_eq, connected_eq, signal_enter]
        rfl
      told := rfl }

/-- Another table may be closed, and calls on it may return. -/
theorem Orderly.passed_retire (h : s.Orderly owns) (hb : b ≠ a) {f : TableEntry → TableEntry}
    (htable : ∀ e, (f e).table = e.table) (hlive : ∀ e, (f e).IsLive → e.IsLive) :
    Passed owns a s (release b (s.modifyEntry b f)) := by
  obtain ⟨items, binding, hreleased⟩ := release_eq (s.modifyEntry b f) b
  have htables : (release b (s.modifyEntry b f)).tables = s.tables.modify b f := by
    rw [hreleased]
    rfl
  refine ⟨h.retire b htable fun e _ => hlive e, by rw [htables, List.length_modify], ?_, ?_, ?_,
    fun line => blocked_retire b htable _, fun line hline => by rw [signal_retire b htable hline],
    fun name line ho => h.connected_retire b htable ho, ?_⟩
  · rw [hreleased]
    rfl
  · rw [hreleased]
    rfl
  · rw [htables, List.getElem?_modify_ne _ _ hb]
  · rw [hreleased]
    rfl

/-- A further table leaves all that concerns the table. -/
theorem Orderly.sameFor_openTable (h : s.Orderly owns) (ha : a ≠ s.tables.length)
    (settings : Settings) : SameFor owns a s (s.openTable settings) where
  store := rfl
  binding := rfl
  entry := by
    refine congrArg (Option.map _) ?_
    change (s.tables ++ [_])[a]? = _
    rw [List.getElem?_append]
    split
    · rfl
    · rename_i hlt
      have hlt' : s.tables.length < a := Nat.lt_of_le_of_ne (Nat.not_lt.1 hlt) (Ne.symm ha)
      rw [List.getElem?_eq_none (Nat.le_of_lt hlt'), List.getElem?_eq_none]
      exact Nat.le_sub_of_add_le (Nat.add_comm .. ▸ hlt')
  blocked line := by
    rcases Line.table?_channel a a line with ⟨hline, -⟩ | ⟨hline, -⟩
    · rw [blocked_openTable settings hline]
    · rw [signal_openTable_of_ne settings hline ha]
  counted line hline := by rw [signal_openTable_of_ne settings hline ha]
  connected name line ho := h.connected_openTable settings ho
  told := rfl

/-- A call on another table leaves all that concerns the table. -/
theorem Orderly.passed_calling (h : s.Orderly owns) (hb : b ≠ a) {call : Call Answer}
    (hcall : Avoids owns a call) (depth : Nat) :
    Passed owns a s ((calling b call).run (emit depth) s).2 := by
  unfold calling
  rw [run_bind, run_read]
  split
  · rename_i hopen
    have hentered := h.passed_enter hb hopen
    have hcalled := (hcall _ hentered.orderly depth).passed hentered.orderly
    simp only [run_bind, run_change, run_pure]
    refine (hentered.trans hcalled).trans (hcalled.orderly.passed_retire hb (fun _ => rfl) ?_)
    exact fun e hl => hl.imp_right fun hcalls hzero => hcalls (by simp [hzero])
  · exact h.passed

/-! ## Replaced signals -/

/-- Replacing a signal leaves the binding. -/
theorem binding_setSignal (s : Session) (channel : Channel) (new : Signal Receiver) :
    (s.setSignal channel new).source.binding = s.source.binding := by
  cases channel <;> rfl

/-- What a table shows has nothing to do with signals. -/
theorem core_setSignal (s : Session) (channel : Channel) (new : Signal Receiver) (c : TableId) :
    (s.setSignal channel new).tables[c]?.map TableEntry.core =
      s.tables[c]?.map TableEntry.core := by
  cases channel with
  | items | binding => rfl
  | grouped d | expanded d | collapsed d | layout d =>
    change (s.tables.modify d _)[c]?.map _ = _
    rw [List.getElem?_modify]
    cases s.tables[c]? with
    | none => rfl
    | some e =>
      refine congrArg some ?_
      dsimp only
      split <;> rfl

/-- A signal is replaced, and names and listeners may be others. -/
structure Renewed (channel : Channel) (new : Signal Receiver) (s t : Session) : Prop where
  source : t.source = (s.setSignal channel new).source
  tables : t.tables = (s.setSignal channel new).tables
  journal : t.journal = s.journal

namespace Renewed

variable {new new' : Signal Receiver}

/-- The signal is the new one, and all others are as before. -/
theorem signal_eq (h : Renewed channel new s t) (hk : s.Knows channel) (other : Channel) :
    t.signal other = if other = channel then new else s.signal other := by
  have hsame : t.signal other = (s.setSignal channel new).signal other := by
    unfold signal table?
    rw [h.source, h.tables]
  rw [hsame, signal_setSignal hk]

theorem length_eq (h : Renewed channel new s t) : t.tables.length = s.tables.length := by
  rw [h.tables, length_setSignal]

/-- The entries stay apart from their connections. -/
theorem core_eq (h : Renewed channel new s t) (c : TableId) :
    t.tables[c]?.map TableEntry.core = s.tables[c]?.map TableEntry.core := by
  rw [h.tables, core_setSignal]

theorem told_eq (h : Renewed channel new s t) (a : TableId) : t.told a = s.told a := by
  unfold told notices
  rw [h.journal]

/-- The signal of another table does not concern the table. -/
theorem sameFor (h : Renewed channel new s t) (hk : s.Knows channel) (hc : channel.line? a = none)
    (hconnected : ∀ name (line : Line), owns name (line.channel a) →
      t.connected name (line.channel a) = s.connected name (line.channel a)) :
    SameFor owns a s t := by
  have hsignal : ∀ line : Line, t.signal (line.channel a) = s.signal (line.channel a) := by
    intro line
    rw [h.signal_eq hk, if_neg (Ne.symm (Channel.ne_of_line?_eq_none hc line))]
  exact {
    store := by rw [h.source, store_setSignal]
    binding := by rw [h.source, binding_setSignal]
    entry := h.core_eq a
    blocked := fun line => by rw [hsignal]
    counted := fun line _ => by rw [hsignal]
    connected := hconnected
    told := h.told_eq a }

/-- A signal that the table has or hears may be replaced alike. -/
theorem alike {line : Line} (hs : Renewed (line.channel a) new s t)
    (hs' : Renewed (line.channel 0) new' s' t') (h : Alike owns a made s s')
    (hk : s.Knows (line.channel a)) {owns' : String → Channel → Prop} (ht : t.Orderly owns')
    (ht' : t'.Orderly (ownsAlone owns' a)) (hblocked : new'.blocked = new.blocked)
    (hcounted : (line.channel a).table? = some a → new'.count = new.count)
    (hconnected : ∀ name (other : Line), owns' name (other.channel a) →
      t'.connected name (other.channel 0) = t.connected name (other.channel a)) :
    Alike owns' a made t t' where
  orderly := ht
  alone := ht'
  made := hs.length_eq.trans h.made
  store := by
    rw [hs.source, hs'.source, store_setSignal, store_setSignal]
    exact h.store
  binding := by
    rw [hs.source, hs'.source, binding_setSignal, binding_setSignal]
    exact h.binding
  entry := by
    rw [hs.core_eq, hs'.core_eq]
    exact h.entry
  blocked other := by
    rw [hs.signal_eq hk, hs'.signal_eq ((h.knows_iff line).2 hk)]
    simp only [Line.channel_inj]
    split
    · exact hblocked
    · exact h.blocked other
  counted other hother := by
    rw [hs.signal_eq hk, hs'.signal_eq ((h.knows_iff line).2 hk)]
    simp only [Line.channel_inj]
    split
    · rename_i he
      exact hcounted (he ▸ hother)
    · exact h.counted other hother
  connected := hconnected
  told := by
    rw [hs.told_eq, hs'.told_eq]
    exact h.told

end Renewed

/-- To block a signal replaces it alone. -/
theorem renewed_block (s : Session) (channel : Channel) (on : Bool) :
    Renewed channel ((s.signal channel).setBlocked on) s (s.block channel on) :=
  ⟨rfl, rfl, by cases channel <;> rfl⟩

/-- A new listener's connection replaces one signal. -/
theorem renewed_listen (s : Session) (name : String) (channel : Channel) (script : List Step)
    (times : Nat) : Renewed channel ((s.signal channel).connect (.listener s.listeners.length)).2 s
      (s.listen name channel script times) :=
  ⟨rfl, rfl, by cases channel <;> rfl⟩

/-- To disconnect replaces one signal. -/
theorem renewed_disconnect (s : Session) (channel : Channel) (id : Option SlotId) :
    Renewed channel ((s.signal channel).disconnect id).2 s (s.disconnect channel id).2 :=
  ⟨rfl, rfl, by cases channel <;> rfl⟩

/-- To block a signal disconnects nobody. -/
theorem connected_block (hk : s.Knows channel) (on : Bool) (name : String) (other : Channel) :
    (s.block channel on).connected name other = s.connected name other := by
  rw [connected_eq, connected_eq, (renewed_block s channel on).signal_eq hk]
  have hnames : (s.block channel on).names = s.names := names_setSignal s channel _
  rw [hnames]
  split
  · rename_i he
    subst he
    rfl
  · rfl

end Session

end GroupedRows
