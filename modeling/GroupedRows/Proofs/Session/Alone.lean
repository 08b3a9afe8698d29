import GroupedRows.Proofs.Session.Connections
import GroupedRows.Proofs.Session.SourceCalls
import GroupedRows.Proofs.Session.TableCalls

/-!
# A table on its own

A session of many tables beside one in which only one of them is made. The two are alike
for the table: they have the same items and binding, the table shows the same and is
open or closed alike, its signals and those of the source are blocked alike, and have told
the same. Calls on the table and steps on the source answer the same in both and keep
them alike, and calls on another table do not matter.
-/

namespace GroupedRows

open Call Session

/-! ## What concerns a table -/

/-- The signals that a table has or hears. -/
inductive Line where
  | items
  | binding
  | grouped
  | expanded
  | collapsed
  | layout
  deriving DecidableEq

/-- The signal of a table. -/
def Line.channel (c : TableId) : Line → Channel
  | items => .items
  | binding => .binding
  | grouped => .grouped c
  | expanded => .expanded c
  | collapsed => .collapsed c
  | layout => .layout c

/-- Which signal of a table this is, if it is one. -/
def Channel.line? (a : TableId) : Channel → Option Line
  | items => some .items
  | binding => some .binding
  | grouped c => if c = a then some .grouped else none
  | expanded c => if c = a then some .expanded else none
  | collapsed c => if c = a then some .collapsed else none
  | layout c => if c = a then some .layout else none

/-- The notice as it goes out where the table is the only one; others concern other tables. -/
def Notice.alone? (a : TableId) : Notice → Option Notice
  | items change => some (.items change)
  | binding state => some (.binding state)
  | grouped c properties => if c = a then some (.grouped 0 properties) else none
  | expanded c k => if c = a then some (.expanded 0 k) else none
  | collapsed c k => if c = a then some (.collapsed 0 k) else none
  | layout c => if c = a then some (.layout 0) else none

/-- All of a table's entry but its connections. -/
structure Core where
  isOpen : Bool
  calls : Nat
  settings : Settings
  arrangement : Arrangement
  stale : Bool

/-- What an entry is apart from its connections. -/
def TableEntry.core (e : TableEntry) : Core :=
  ⟨e.isOpen, e.calls, e.table.settings, e.table.arrangement, e.table.stale⟩

/-- A channel is a line of the table if it is the table's channel for this line. -/
theorem Channel.line?_eq_some_iff {a : TableId} {channel : Channel} {line : Line} :
    channel.line? a = some line ↔ channel = line.channel a := by
  cases channel <;> cases line <;> simp [line?, Line.channel]

/-- A signal of another table is none of the table's. -/
theorem Channel.ne_of_line?_eq_none {a : TableId} {channel : Channel} (h : channel.line? a = none)
    (line : Line) : channel ≠ line.channel a := by
  rintro rfl
  rw [line?_eq_some_iff.2 rfl] at h
  exact Option.some_ne_none line h

/-- Different lines of one table are different channels. -/
theorem Line.channel_inj {c : TableId} {line line' : Line} :
    line.channel c = line'.channel c ↔ line = line' := by
  cases line <;> cases line' <;> simp [channel]

/-- The signal of the source is everybody's. -/
theorem Line.table?_channel (c d : TableId) (line : Line) :
    (line.channel c).table? = none ∧ (line.channel d).table? = none ∧
        line.channel c = line.channel d ∨
      (line.channel c).table? = some c ∧ (line.channel d).table? = some d := by
  cases line <;> simp [channel, Channel.table?]

/-- A signal that one table has, every table has. -/
theorem Line.table?_channel_of_eq {c : TableId} {line : Line}
    (h : (line.channel c).table? = some c) (d : TableId) : (line.channel d).table? = some d := by
  rcases Line.table?_channel c d line with ⟨hnone, -⟩ | ⟨-, hd⟩
  · exact absurd (hnone.symm.trans h).symm (Option.some_ne_none c)
  · exact hd

namespace Notice

variable {a c : TableId} {n n' : Notice}

/-- A notice that goes out where the table is alone goes out on the same line. -/
theorem exists_line_of_alone? (h : n.alone? a = some n') :
    ∃ line : Line, n.channel = line.channel a ∧ n'.channel = line.channel 0 := by
  cases n with
  | items change => exact ⟨.items, rfl, Option.some.inj h ▸ rfl⟩
  | binding state => exact ⟨.binding, rfl, Option.some.inj h ▸ rfl⟩
  | grouped c | expanded c | collapsed c | layout c =>
    simp only [alone?, Option.ite_none_right_eq_some, Option.some.injEq] at h
    obtain ⟨rfl, rfl⟩ := h
    first
      | exact ⟨.grouped, rfl, rfl⟩
      | exact ⟨.expanded, rfl, rfl⟩
      | exact ⟨.collapsed, rfl, rfl⟩
      | exact ⟨.layout, rfl, rfl⟩

/-- Where the table is alone already, its notices go out as they are. -/
theorem alone?_alone? (h : n.alone? a = some n') : n'.alone? 0 = some n' := by
  cases n with
  | items | binding =>
    obtain rfl := Option.some.inj h
    rfl
  | grouped c | expanded c | collapsed c | layout c =>
    simp only [alone?, Option.ite_none_right_eq_some, Option.some.injEq] at h
    obtain ⟨rfl, rfl⟩ := h
    rfl

/-- A notice on a signal of another table does not go out where the table is alone. -/
theorem alone?_eq_none (hc : n.channel.table? = some c) (h : c ≠ a) : n.alone? a = none := by
  cases n <;> simp_all [alone?, channel, Channel.table?]

end Notice

namespace Session

/-- Whether what was connected last under a name is connected to a signal. -/
def connected (s : Session) (name : String) (channel : Channel) : Bool :=
  (s.disconnect channel (s.names.get? name)).1

/-- What the journal has noted that concerns a table. -/
def told (s : Session) (a : TableId) : List Notice := s.notices.filterMap (·.alone? a)

/-- The sessions agree in all that concerns a table. -/
structure SameFor (owns : String → Channel → Prop) (a : TableId) (s t : Session) : Prop where
  store : t.source.store = s.source.store
  binding : t.source.binding = s.source.binding
  entry : t.tables[a]?.map TableEntry.core = s.tables[a]?.map TableEntry.core
  blocked : ∀ line : Line,
    (t.signal (line.channel a)).blocked = (s.signal (line.channel a)).blocked
  counted : ∀ line : Line, (line.channel a).table? = some a →
    (t.signal (line.channel a)).count = (s.signal (line.channel a)).count
  connected : ∀ name (line : Line), owns name (line.channel a) →
    t.connected name (line.channel a) = s.connected name (line.channel a)
  told : t.told a = s.told a

/-- Names belong to the signals that the table has or hears. -/
def ownsAlone (owns : String → Channel → Prop) (a : TableId) (name : String) (channel : Channel) :
    Prop :=
  ∃ line : Line, channel = line.channel 0 ∧ owns name (line.channel a)

/-- A session with a number of tables, and one with a single table at most, agree in all that
concerns a table. -/
structure Alike (owns : String → Channel → Prop) (a : TableId) (made : Nat) (s s' : Session) :
    Prop where
  orderly : s.Orderly owns
  alone : s'.Orderly (ownsAlone owns a)
  made : s.tables.length = made
  store : s'.source.store = s.source.store
  binding : s'.source.binding = s.source.binding
  entry : s'.tables[0]?.map TableEntry.core = s.tables[a]?.map TableEntry.core
  blocked : ∀ line : Line,
    (s'.signal (line.channel 0)).blocked = (s.signal (line.channel a)).blocked
  counted : ∀ line : Line, (line.channel a).table? = some a →
    (s'.signal (line.channel 0)).count = (s.signal (line.channel a)).count
  connected : ∀ name (line : Line), owns name (line.channel a) →
    s'.connected name (line.channel 0) = s.connected name (line.channel a)
  told : s'.told 0 = s.told a

variable {owns : String → Channel → Prop} {a b c : TableId} {made : Nat} {s s' t t' u : Session}
  {channel : Channel}

theorem SameFor.refl (s : Session) : SameFor owns a s s :=
  ⟨rfl, rfl, rfl, fun _ => rfl, fun _ _ => rfl, fun _ _ _ => rfl, rfl⟩

theorem SameFor.trans (h : SameFor owns a s t) (h' : SameFor owns a t u) : SameFor owns a s u where
  store := h'.store.trans h.store
  binding := h'.binding.trans h.binding
  entry := h'.entry.trans h.entry
  blocked line := (h'.blocked line).trans (h.blocked line)
  counted line hline := (h'.counted line hline).trans (h.counted line hline)
  connected name line ho := (h'.connected name line ho).trans (h.connected name line ho)
  told := h'.told.trans h.told

/-- Who is connected under a name depends on the connections alone. -/
theorem SameLinks.connected_eq (h : SameLinks s t) (name : String) (channel : Channel) :
    t.connected name channel = s.connected name channel := by
  unfold Session.connected disconnect
  rw [h.signal_eq, h.names]

/-- Where connections stay, only the items and the binding matter, and what the table shows and what
it has told. -/
theorem SameLinks.sameFor (h : SameLinks s t) (hstore : t.source.store = s.source.store)
    (hbinding : t.source.binding = s.source.binding)
    (hentry : t.tables[a]?.map TableEntry.core = s.tables[a]?.map TableEntry.core)
    (htold : t.told a = s.told a) : SameFor owns a s t :=
  ⟨hstore, hbinding, hentry, fun line => by rw [h.signal_eq], fun line _ => by rw [h.signal_eq],
    fun name line _ => h.connected_eq name _, htold⟩

/-- What a changed entry shows is determined by what it showed. -/
theorem core_modifyEntry (s : Session) (c : TableId) {f : TableEntry → TableEntry} {g : Core → Core}
    (hg : ∀ e : TableEntry, (f e).core = g e.core) :
    (s.modifyEntry c f).tables[c]?.map TableEntry.core =
      (s.tables[c]?.map TableEntry.core).map g := by
  change (s.tables.modify c f)[c]?.map _ = _
  rw [List.getElem?_modify_eq]
  cases s.tables[c]? with
  | none => rfl
  | some e => exact congrArg some (hg e)

namespace Alike

/-- The first session may change in what does not concern the table, and signals of others may take
names over. -/
theorem left (h : Alike owns a made s s') {owns' : String → Channel → Prop} (ht : t.Orderly owns')
    (hsub : ∀ name (line : Line), owns' name (line.channel a) → owns name (line.channel a))
    {more : Nat} (hmade : t.tables.length = more) (hsame : SameFor owns' a s t) :
    Alike owns' a more t s' where
  orderly := ht
  alone := h.alone.mono fun name _ ⟨line, hline, ho⟩ => ⟨line, hline, hsub name line ho⟩
  made := hmade
  store := h.store.trans hsame.store.symm
  binding := h.binding.trans hsame.binding.symm
  entry := h.entry.trans hsame.entry.symm
  blocked line := (h.blocked line).trans (hsame.blocked line).symm
  counted line hline := (h.counted line hline).trans (hsame.counted line hline).symm
  connected name line ho :=
    (h.connected name line (hsub name line ho)).trans (hsame.connected name line ho).symm
  told := h.told.trans hsame.told.symm

/-- Both sessions may change in the same way where connections stay. -/
theorem relink (h : Alike owns a made s s') (hs : SameLinks s t) (hs' : SameLinks s' t')
    (hstore : t'.source.store = t.source.store) (hbinding : t'.source.binding = t.source.binding)
    (hentry : t'.tables[0]?.map TableEntry.core = t.tables[a]?.map TableEntry.core)
    (htold : t'.told 0 = t.told a) : Alike owns a made t t' where
  orderly := h.orderly.congr hs
  alone := h.alone.congr hs'
  made := hs.length_eq.trans h.made
  store := hstore
  binding := hbinding
  entry := hentry
  blocked line := by
    rw [hs.signal_eq, hs'.signal_eq]
    exact h.blocked line
  counted line hline := by
    rw [hs.signal_eq, hs'.signal_eq]
    exact h.counted line hline
  connected name line ho := by
    rw [hs.connected_eq, hs'.connected_eq]
    exact h.connected name line ho
  told := htold

/-- What is seen of the table alone is what is seen of it among others. -/
theorem sight_eq (h : Alike owns a made s s') : s'.sight 0 = s.sight a := by
  have hsight : ∀ (s : Session) (c : TableId), s.sight c =
      (s.tables[c]?.map TableEntry.core).map fun e =>
        (e.settings.ungrouped, e.arrangement, e.stale) := by
    intro s c
    rw [sight, table?, Option.map_map, Option.map_map]
    rfl
  rw [hsight, hsight, h.entry]

/-- What can be seen of the table is the same. -/
theorem sighted_eq {α : Type} (h : Alike owns a made s s') {g : TableId → Session → α}
    (hg : Sighted g) : g 0 s' = g a s :=
  hg a 0 s s' h.store h.binding h.sight_eq

end Alike

/-! ## Notices -/

/-- Nobody is connected to the signals of a table that has not been made. -/
theorem signal_of_not_knows (h : ¬ s.Knows channel) : s.signal channel = .empty := by
  simp only [Knows, not_forall, Nat.not_lt] at h
  obtain ⟨c, hc, hlength⟩ := h
  have hnone : s.table? c = none := by
    rw [table?, List.getElem?_eq_none hlength]
    rfl
  cases channel with
  | items | binding => exact absurd hc.symm (Option.some_ne_none c)
  | grouped | expanded | collapsed | layout =>
    obtain rfl := Option.some.inj hc
    simp only [signal, hnone]
    rfl

/-- No table hears a signal of a table. -/
theorem Tended.table_not_mem_audience (h : s.Tended owns) {d : TableId}
    (hd : channel.table? = some d) (c : TableId) : .table c ∉ (s.signal channel).audience := by
  by_cases hk : s.Knows channel
  · unfold Signal.audience
    split
    · exact List.not_mem_nil
    · intro hc
      obtain ⟨id, hid⟩ := SlotTable.exists_get?_of_mem_values hc
      have hnone := ((h.attended channel hk).tables id c hid).1
      exact Option.some_ne_none d (hd.symm.trans hnone)
  · rw [signal_of_not_knows hk]
    exact List.not_mem_nil

/-- The journal hears every signal once that is not blocked. -/
theorem Tended.count_journal (h : s.Tended owns) (hk : s.Knows channel) :
    (s.signal channel).audience.count .journal = if (s.signal channel).blocked then 0 else 1 := by
  unfold Signal.audience
  split
  · rfl
  · obtain ⟨i, hi⟩ := (h.attended channel hk).journal
    exact SlotTable.count_values_eq_one hi

/-- A table hears a signal of the source while it is live and the signal is not blocked. -/
theorem Orderly.table_mem_audience (h : s.Orderly owns) (hchannel : channel.table? = none)
    {e : TableEntry} (he : s.tables[c]? = some e) :
    .table c ∈ (s.signal channel).audience ↔ (s.signal channel).blocked = false ∧ e.IsLive := by
  have hvalues : ∀ {links : SlotTable Receiver} {link : SlotId}, Wire links c e.IsLive link →
      (.table c ∈ links.values ↔ e.IsLive) := by
    intro links link hw
    refine ⟨fun hc => ?_, fun hl => SlotTable.mem_values_of_get? (hw.linked.2 hl)⟩
    obtain ⟨id, hid⟩ := SlotTable.exists_get?_of_mem_values hc
    obtain rfl := (hw.own id _ hid).2 rfl
    exact hw.linked.1 hid
  have hlive : .table c ∈ (s.signal channel).table.values ↔ e.IsLive := by
    cases channel with
    | items => exact hvalues (h.items c e he)
    | binding => exact hvalues (h.binding c e he)
    | grouped | expanded | collapsed | layout => exact absurd hchannel (Option.some_ne_none _)
  unfold Signal.audience
  cases (s.signal channel).blocked with
  | true => simp
  | false => simpa using hlive

/-- An emission tells as much of a table as the journal hears. -/
theorem told_emit (h : s.Quiet) (depth : Nat) (n : Notice) (a : TableId) :
    (emit depth n s).told a = s.told a ++
      (List.replicate ((s.signal n.channel).audience.count .journal) n).filterMap (·.alone? a) := by
  unfold Session.told
  rw [(heard_emit depth n h).notices, List.filterMap_append]

/-- A notice of another table does not concern the table. -/
theorem sameFor_emit (h : s.Orderly owns) (depth : Nat) {n : Notice}
    (hb : n.channel.table? = some b) (hne : b ≠ a) : SameFor owns a s (emit depth n s) := by
  have hheard := heard_emit depth n h.quiet
  refine (sameLinks_emit h.quiet depth n).sameFor (by rw [hheard.source]) (by rw [hheard.source])
    ?_ ?_
  · simp only [hheard.tables, h.table_not_mem_audience hb a, if_false, Option.map_id']
  · rw [told_emit h.quiet, List.filterMap_replicate_of_none (Notice.alone?_eq_none hb hne),
      List.append_nil]

namespace Alike

variable {n n' : Notice}

/-- The table has been made in both sessions or in none. -/
theorem entry_cases (h : Alike owns a made s s') :
    s.tables[a]? = none ∧ s'.tables[0]? = none ∨
      ∃ e e', s.tables[a]? = some e ∧ s'.tables[0]? = some e' ∧ e'.core = e.core := by
  have hentry := h.entry
  cases he : s.tables[a]? with
  | none =>
    rw [he] at hentry
    exact .inl ⟨rfl, Option.map_eq_none_iff.1 hentry⟩
  | some e =>
    rw [he] at hentry
    obtain ⟨e', he', hcore⟩ := Option.map_eq_some_iff.1 hentry
    exact .inr ⟨e, e', rfl, he', hcore⟩

/-- A line of the table is known if that of the table alone is known. -/
theorem knows_iff (h : Alike owns a made s s') (line : Line) :
    s'.Knows (line.channel 0) ↔ s.Knows (line.channel a) := by
  have hmade : 0 < s'.tables.length ↔ a < s.tables.length := by
    rcases h.entry_cases with ⟨hnone, hnone'⟩ | ⟨e, e', he, he', -⟩
    · rw [List.getElem?_eq_none_iff] at hnone hnone'
      exact iff_of_false (Nat.not_lt.2 hnone') (Nat.not_lt.2 hnone)
    · exact iff_of_true (List.getElem?_eq_some_iff.1 he').1 (List.getElem?_eq_some_iff.1 he).1
  cases line <;> simp [Knows, Line.channel, Channel.table?, hmade]

/-- The table hears a notice in both sessions or in none. -/
theorem table_mem_audience_iff (h : Alike owns a made s s') (line : Line) {e e' : TableEntry}
    (he : s.tables[a]? = some e) (he' : s'.tables[0]? = some e') (hcore : e'.core = e.core) :
    .table 0 ∈ (s'.signal (line.channel 0)).audience ↔
      .table a ∈ (s.signal (line.channel a)).audience := by
  rcases Line.table?_channel a 0 line with ⟨ha, h0, -⟩ | ⟨ha, h0⟩
  · rw [h.orderly.table_mem_audience ha he, h.alone.table_mem_audience h0 he', h.blocked]
    unfold TableEntry.IsLive
    rw [show e'.isOpen = e.isOpen from congrArg Core.isOpen hcore,
      show e'.calls = e.calls from congrArg Core.calls hcore]
  · exact iff_of_false (h.alone.table_not_mem_audience h0 0) (h.orderly.table_not_mem_audience ha a)

/-- A notice that concerns the table goes out in both sessions. -/
theorem emit (h : Alike owns a made s s') (hn : n.alone? a = some n') (depth depth' : Nat) :
    Alike owns a made (Session.emit depth n s) (Session.emit depth' n' s') := by
  obtain ⟨line, hline, hline'⟩ := Notice.exists_line_of_alone? hn
  have hheard := heard_emit depth n h.orderly.quiet
  have hheard' := heard_emit depth' n' h.alone.quiet
  refine h.relink (sameLinks_emit h.orderly.quiet depth n) (sameLinks_emit h.alone.quiet depth' n')
    ?_ ?_ ?_ ?_
  · rw [hheard.source, hheard'.source]
    exact h.store
  · rw [hheard.source, hheard'.source]
    exact h.binding
  · rw [hheard.tables, hheard'.tables]
    rcases h.entry_cases with ⟨hnone, hnone'⟩ | ⟨e, e', he, he', hcore⟩
    · rw [hnone, hnone']
      rfl
    · have hmem := h.table_mem_audience_iff line he he' hcore
      rw [he, he', hline, hline']
      simp only [Option.map_some, hmem]
      split
      · exact congrArg (fun core : Core => some { core with stale := true }) hcore
      · exact congrArg some hcore
  · have hcount : (s'.signal n'.channel).audience.count .journal =
        (s.signal n.channel).audience.count .journal := by
      rw [hline, hline']
      by_cases hk : s.Knows (line.channel a)
      · rw [h.orderly.count_journal hk, h.alone.count_journal ((h.knows_iff line).2 hk), h.blocked]
      · rw [signal_of_not_knows hk, signal_of_not_knows fun hk' => hk ((h.knows_iff line).1 hk')]
    rw [told_emit h.orderly.quiet, told_emit h.alone.quiet, List.filterMap_replicate_of_some hn,
      List.filterMap_replicate_of_some (Notice.alone?_alone? hn), hcount, h.told]

theorem write (h : Alike owns a made s s') (records records' : List LogRecord) :
    Alike owns a made (s.write records) (s'.write records') :=
  h.relink (.write s records) (.write s' records') h.store h.binding h.entry h.told

/-- The table may change alike in both sessions. -/
theorem modifyTable (h : Alike owns a made s s') {f f' : Table → Table} (g : Core → Core)
    (hf : ∀ e : TableEntry, TableEntry.wiring { e with table := f e.table } = e.wiring)
    (hf' : ∀ e : TableEntry, TableEntry.wiring { e with table := f' e.table } = e.wiring)
    (hg : ∀ e : TableEntry, TableEntry.core { e with table := f e.table } = g e.core)
    (hg' : ∀ e : TableEntry, TableEntry.core { e with table := f' e.table } = g e.core) :
    Alike owns a made (s.modifyTable a f) (s'.modifyTable 0 f') := by
  refine h.relink (sameLinks_modifyEntry a hf) (sameLinks_modifyEntry 0 hf') h.store h.binding ?_
    h.told
  rw [Session.modifyTable, Session.modifyTable, core_modifyEntry s a hg, core_modifyEntry s' 0 hg',
    h.entry]

/-- To rebuild the table keeps sessions alike. -/
theorem rebuild (h : Alike owns a made s s') (properties : List String) (expandAll : Bool) :
    Alike owns a made (s.rebuild a properties expandAll) (s'.rebuild 0 properties expandAll) := by
  unfold Session.rebuild table?
  rcases h.entry_cases with ⟨hnone, hnone'⟩ | ⟨e, e', he, he', -⟩
  · rw [hnone, hnone']
    exact h
  · rw [he, he']
    refine (h.write _ _).modifyTable (fun core => { core with
      arrangement := core.arrangement.regroup (s.source.tree properties)
        core.settings.restoreExpansion expandAll
      stale := false }) (fun _ => rfl) (fun _ => rfl) (fun _ => rfl) fun e => ?_
    rw [Source.tree, ← h.store]
    rfl

theorem arrange (h : Alike owns a made s s') (f : Arrangement → Arrangement) :
    Alike owns a made (s.arrange a f) (s'.arrange 0 f) :=
  h.modifyTable (fun core => { core with arrangement := f core.arrangement }) (fun _ => rfl)
    (fun _ => rfl) (fun _ => rfl) fun _ => rfl

theorem rearrange (h : Alike owns a made s s') (f : Arrangement → Arrangement) :
    Alike owns a made (s.rearrange a f) (s'.rearrange 0 f) := by
  unfold Session.rearrange table?
  rcases h.entry_cases with ⟨hnone, hnone'⟩ | ⟨e, e', he, he', -⟩
  · rw [hnone, hnone']
    exact h
  · rw [he, he']
    exact (h.write _ _).arrange f

theorem look (h : Alike owns a made s s') : Alike owns a made (s.look a) (s'.look 0) := by
  unfold Session.look table?
  rcases h.entry_cases with ⟨hnone, hnone'⟩ | ⟨e, e', he, he', -⟩
  · rw [hnone, hnone']
    exact h
  · rw [he, he']
    exact (h.write _ _).arrange Arrangement.looked

end Alike

/-! ## Calls on the table -/

/-- The calls answer the same in sessions that are alike, and keep them alike. -/
def Twin (owns : String → Channel → Prop) (a : TableId) (made : Nat) {α : Type} (m m' : Call α) :
    Prop :=
  ∀ s s', Alike owns a made s s' → ∀ depth depth',
    (m.run (emit depth) s).1 = (m'.run (emit depth') s').1 ∧
      Alike owns a made (m.run (emit depth) s).2 (m'.run (emit depth') s').2

variable {α β : Type}

/-- Who answers without doing anything answers the same in both. -/
theorem twin_pure (answer : α) : Twin owns a made (pure answer) (pure answer) :=
  fun _ _ h _ _ => ⟨rfl, h⟩

/-- Calls that go on from the same answer alike are alike together. -/
theorem Twin.bind {m m' : Call α} {f f' : α → Call β} (h : Twin owns a made m m')
    (hf : ∀ answer, Twin owns a made (f answer) (f' answer)) :
    Twin owns a made (m >>= f) (m' >>= f') := by
  intro s s' hs depth depth'
  obtain ⟨hanswer, hs⟩ := h s s' hs depth depth'
  rw [run_bind, run_bind, hanswer]
  exact hf _ _ _ hs depth depth'

theorem Twin.map {m m' : Call α} (h : Twin owns a made m m') (f : α → β) :
    Twin owns a made (do return f (← m)) (do return f (← m')) :=
  h.bind fun _ => twin_pure _

/-- A change that keeps sessions alike may be made in both. -/
theorem twin_change {f f' : Session → Session}
    (h : ∀ s s', Alike owns a made s s' → Alike owns a made (f s) (f' s')) :
    Twin owns a made (change f) (change f') :=
  fun s s' hs _ _ => ⟨rfl, h s s' hs⟩

/-- A notice of the table goes out in both, in each under its own number. -/
theorem twin_send {n n' : Notice} (hn : n.alone? a = some n') :
    Twin owns a made (send n) (send n') :=
  fun _ _ hs depth depth' => ⟨rfl, hs.emit hn depth depth'⟩

/-- Calls on the table are alike, since those are of which they are made. -/
theorem composed_twin : Composed fun {_} m => Twin owns a made (m a) (m 0) where
  pure := twin_pure
  bind hm hf := hm.bind hf
  ask hg s s' hs _ _ := ⟨(hs.sighted_eq hg).symm, hs⟩
  look := twin_change fun _ _ hs => hs.look
  write records := twin_change fun _ _ hs => hs.write records records
  rebuild properties expandAll := twin_change fun _ _ hs => hs.rebuild properties expandAll
  rearrange f := twin_change fun _ _ hs => hs.rearrange f
  grouped properties := twin_send (by simp [Notice.alone?])
  expanded k := twin_send (by simp [Notice.alone?])
  collapsed k := twin_send (by simp [Notice.alone?])
  layout := twin_send (by simp [Notice.alone?])

/-- What is composed of calls on the table answers the same for the table alone. -/
theorem working_twin : Working fun {_} m => Twin owns a made (m a) (m 0) := composed_twin.working

/-- The settings are found alike. -/
theorem twin_settings : Twin owns a made (askTable a .settings) (askTable 0 .settings) := by
  have hanswer : ∀ (s : Session) (c : TableId),
      ((s.table? c).map fun t => Answer.settings t.settings) =
        (s.tables[c]?.map TableEntry.core).map fun e => .settings e.settings := by
    intro s c
    rw [table?, Option.map_map, Option.map_map]
    rfl
  refine fun s s' hs depth depth' => ⟨?_, hs⟩
  change ((s.table? a).map fun t => Answer.settings t.settings).getD .noTable =
    ((s'.table? 0).map fun t => Answer.settings t.settings).getD .noTable
  rw [hanswer, hanswer, hs.entry]

/-! ## Calls on another table -/

/-- Connections stay, and all that concerns the table. -/
def Avoided (owns : String → Channel → Prop) (a : TableId) (s t : Session) : Prop :=
  SameLinks s t ∧ SameFor owns a s t

theorem Avoided.trans (h : Avoided owns a s t) (h' : Avoided owns a t u) : Avoided owns a s u :=
  ⟨h.1.trans h'.1, h.2.trans h'.2⟩

theorem avoided_refl (s : Session) : Avoided owns a s s := ⟨.refl s, .refl s⟩

theorem avoided_write (s : Session) (records : List LogRecord) :
    Avoided owns a s (s.write records) :=
  ⟨.write s records, (SameLinks.write s records).sameFor rfl rfl rfl rfl⟩

/-- Another table may change but for its connections. -/
theorem avoided_modifyTable (hb : b ≠ a) {f : Table → Table}
    (hf : ∀ e : TableEntry, TableEntry.wiring { e with table := f e.table } = e.wiring) :
    Avoided owns a s (s.modifyTable b f) := by
  have hlinks : SameLinks s (s.modifyTable b f) := sameLinks_modifyEntry b hf
  refine ⟨hlinks, hlinks.sameFor rfl rfl (congrArg (Option.map _) ?_) rfl⟩
  exact List.getElem?_modify_ne _ _ hb

theorem avoided_rebuild (hb : b ≠ a) (properties : List String) (expandAll : Bool) :
    Avoided owns a s (s.rebuild b properties expandAll) := by
  unfold Session.rebuild
  split
  · exact avoided_refl s
  · exact (avoided_write s _).trans (avoided_modifyTable hb fun _ => rfl)

theorem avoided_rearrange (hb : b ≠ a) (f : Arrangement → Arrangement) :
    Avoided owns a s (s.rearrange b f) := by
  unfold Session.rearrange
  split
  · exact avoided_refl s
  · exact (avoided_write s _).trans (avoided_modifyTable hb fun _ => rfl)

theorem avoided_look (hb : b ≠ a) : Avoided owns a s (s.look b) := by
  unfold Session.look
  split
  · exact avoided_refl s
  · exact (avoided_write s _).trans (avoided_modifyTable hb fun _ => rfl)

/-- From an orderly session the call leaves connections, and all that concerns the table. -/
def Avoids (owns : String → Channel → Prop) (a : TableId) (m : Call α) : Prop :=
  ∀ s, s.Orderly owns → ∀ depth, Avoided owns a s (m.run (emit depth) s).2

theorem avoids_pure (answer : α) : Avoids owns a (pure answer : Call α) :=
  fun s _ _ => avoided_refl s

theorem Avoids.bind {m : Call α} {f : α → Call β} (h : Avoids owns a m)
    (hf : ∀ answer, Avoids owns a (f answer)) : Avoids owns a (m >>= f) := by
  intro s hs depth
  rw [run_bind]
  have hm := h s hs depth
  exact hm.trans (hf _ _ (hs.congr hm.1) depth)

/-- A call that goes by the session avoids a table if it does for any session. -/
theorem avoids_read {f : Session → Call β} (h : ∀ s, Avoids owns a (f s)) :
    Avoids owns a (read >>= f) := by
  intro s hs depth
  rw [run_bind, run_read]
  exact h s s hs depth

theorem avoids_change {f : Session → Session} (h : ∀ s, Avoided owns a s (f s)) :
    Avoids owns a (change f) :=
  fun s _ _ => h s

/-- A notice of another table avoids this one. -/
theorem avoids_send {n : Notice} (hn : n.channel.table? = some b) (hb : b ≠ a) :
    Avoids owns a (send n) :=
  fun _ hs depth => ⟨sameLinks_emit hs.quiet depth n, sameFor_emit hs depth hn hb⟩

/-- Whatever rearranges another table avoids this one. -/
theorem avoided_rearranges (hb : b ≠ a) {f : Session → Session} (h : Rearranges b f) (s : Session) :
    Avoided owns a s (f s) := by
  induction h generalizing s with
  | rebuild properties expandAll => exact avoided_rebuild hb properties expandAll
  | rearrange f => exact avoided_rearrange hb f
  | write records _ ih => exact (avoided_write s records).trans (ih (s.write records))

/-- All that announcing calls on another table are composed of avoids this one. -/
theorem announcing_avoids (hb : b ≠ a) : Announcing (Avoids owns a) b where
  pure := avoids_pure
  bind := Avoids.bind
  read := avoids_read
  look := avoids_change fun _ => avoided_look hb
  send hn := avoids_send hn hb
  announced _ hf hm := (avoids_change (avoided_rearranges hb hf)).bind fun _ => hm.bind fun _ =>
    (avoids_send rfl hb).bind fun _ => avoids_pure _

/-- Calls on another table leave the table alone, since those do of which they are made. -/
theorem working_avoids : Working fun {_} m => ∀ b, b ≠ a → Avoids owns a (m b) :=
  Announcing.working fun _ => announcing_avoids

/-! ## Steps on the source -/

/-- Calls on the source are alike, since those are of which steps on it are made. -/
theorem sourcing_twin : Sourcing fun {_} m => Twin owns a made m m where
  pure := twin_pure
  bind := Twin.bind
  read {_ f} hf hk s s' hs depth depth' := by
    rw [run_bind, run_bind, run_read, run_read, hf s s' hs.store hs.binding]
    exact hk s s s' hs depth depth'
  setStore _ := twin_change fun _ _ h => h.relink ⟨rfl, rfl, rfl, rfl, rfl, id⟩
    ⟨rfl, rfl, rfl, rfl, rfl, id⟩ rfl h.binding h.entry h.told
  setBinding _ := twin_change fun _ _ h => h.relink ⟨rfl, rfl, rfl, rfl, rfl, id⟩
    ⟨rfl, rfl, rfl, rfl, rfl, id⟩ h.store rfl h.entry h.told
  write records := twin_change fun _ _ h => h.write records records
  send n hn := twin_send <| by
    cases n with
    | items | binding => rfl
    | grouped c | expanded c | collapsed c | layout c => exact absurd hn (Option.some_ne_none c)

end Session

end GroupedRows
