import GroupedRows.Proofs.Session.Coherence
import GroupedRows.Proofs.Session.Reading
import GroupedRows.Proofs.Session.SourceCalls
import GroupedRows.Proofs.Session.TableCalls

/-!
# No change of the rows goes unannounced

The rows of a table are those of its tree and its open groups. A call that may change
these announces the layout before it ends, and so do the calls that listeners make
meanwhile. So if the layout is not announced between two reads, both show the same rows.
-/

namespace GroupedRows

open Call Session

/-- What the visible rows are made of. -/
def Table.content (t : Table) : GroupTree × Expansion := (t.tree, t.arrangement.expansion)

namespace Session

/-- If the table exists, its layout signal is not blocked. -/
def Audible (s : Session) (c : TableId) : Prop :=
  ∀ t, s.table? c = some t → t.layout.blocked = false

/-- The table exists, with this tree and these open groups. -/
def Displays (s : Session) (c : TableId) (v : GroupTree × Expansion) : Prop :=
  (s.table? c).map Table.content = some v

/-- The table shows the same afterwards. -/
structure Kept (c : TableId) (s s' : Session) : Prop where
  audible : s.Audible c → s'.Audible c
  displays : ∀ v, s.Displays c v → s'.Displays c v

/-- If `settled`, the table shows the same afterwards, or its layout has been announced. -/
def Told (settled : Prop) (c : TableId) (s : Session) (ns : List Notice) (s' : Session) : Prop :=
  s.Audible c → s'.Audible c ∧
    ∀ v, s.Displays c v → ∃ v', s'.Displays c v' ∧ (settled → v' = v ∨ .layout c ∈ ns)

variable {b c : TableId} {s s' t : Session} {ns ms : List Notice} {p : Prop}

theorem kept_refl (c : TableId) (s : Session) : Kept c s s := ⟨id, fun _ => id⟩

theorem Kept.trans (h : Kept c s s') (h' : Kept c s' t) : Kept c s t :=
  ⟨fun ha => h'.audible (h.audible ha), fun v hv => h'.displays v (h.displays v hv)⟩

/-- A table that is kept has nothing to tell. -/
theorem Kept.told (h : Kept c s s') : Told p c s [] s' :=
  fun ha => ⟨h.audible ha, fun v hv => ⟨v, h.displays v hv, fun _ => .inl rfl⟩⟩

/-- What has been told stays told while more happens. -/
theorem Told.trans (h : Told p c s ns s') (h' : Told p c s' ms t) : Told p c s (ns ++ ms) t := by
  intro ha
  obtain ⟨ha₁, hd₁⟩ := h ha
  obtain ⟨ha₂, hd₂⟩ := h' ha₁
  refine ⟨ha₂, fun v hv => ?_⟩
  obtain ⟨v₁, hv₁, hor₁⟩ := hd₁ v hv
  obtain ⟨v₂, hv₂, hor₂⟩ := hd₂ v₁ hv₁
  refine ⟨v₂, hv₂, fun hp => ?_⟩
  rcases hor₁ hp with rfl | hn
  · exact (hor₂ hp).imp_right (List.mem_append_right ns)
  · exact .inr (List.mem_append_left ms hn)

/-- Notices in addition do no harm. -/
theorem Told.mono (h : Told p c s ms s') (hn : ∀ n ∈ ms, n ∈ ns) : Told p c s ns s' := by
  intro ha
  obtain ⟨ha', hd⟩ := h ha
  refine ⟨ha', fun v hv => ?_⟩
  obtain ⟨v', hv', hor⟩ := hd v hv
  exact ⟨v', hv', fun hp => (hor hp).imp_right (hn _)⟩

/-- Where it is not settled what the table shows, an announcement of the layout settles it. -/
theorem Told.settle (h : Told p c s ns s') (hn : ¬ p → s.Audible c → .layout c ∈ ns)
    (q : Prop) : Told q c s ns s' := by
  intro ha
  obtain ⟨ha', hd⟩ := h ha
  refine ⟨ha', fun v hv => ?_⟩
  obtain ⟨v', hv', hor⟩ := hd v hv
  refine ⟨v', hv', fun _ => ?_⟩
  by_cases hp : p
  · exact hor hp
  · exact .inr (hn hp ha)

/-! ## Changes of a session -/

theorem kept_of_table? (h : s'.table? c = s.table? c) : Kept c s s' := by
  refine ⟨fun ha t ht => ha t (h ▸ ht), fun v hv => ?_⟩
  unfold Displays at hv ⊢
  rwa [h]

theorem kept_of_tables (h : s'.tables = s.tables) : Kept c s s' :=
  kept_of_table? (congrArg (fun tables : List TableEntry => tables[c]?.map TableEntry.table) h)

theorem kept_write (s : Session) (records : List LogRecord) : Kept c s (s.write records) :=
  kept_of_tables rfl

/-- A change of another entry leaves the table. -/
theorem table?_modifyEntry_of_ne (h : b ≠ c) (f : TableEntry → TableEntry) :
    (s.modifyEntry b f).table? c = s.table? c := by
  change (s.tables.modify b f)[c]?.map _ = s.tables[c]?.map _
  rw [List.getElem?_modify_ne _ _ h]

/-- A change of the entry changes its table. -/
theorem table?_modifyEntry_self (s : Session) (c : TableId) (f : TableEntry → TableEntry) :
    (s.modifyEntry c f).table? c = s.tables[c]?.map fun e => (f e).table := by
  change (s.tables.modify c f)[c]?.map _ = _
  rw [List.getElem?_modify_eq]
  cases s.tables[c]? <;> rfl

/-- A change of a table moves no other table, and leaves those audible whose layout signal is not
blocked by it. -/
theorem told_modifyEntry {f : TableEntry → TableEntry}
    (hf : ∀ e, b = c → s.tables[c]? = some e → s.Audible c → (f e).table.layout.blocked = false) :
    Told (b ≠ c) c s [] (s.modifyEntry b f) := by
  by_cases hb : b = c
  · subst hb
    refine fun ha => ⟨fun t ht => ?_, fun v hv => ?_⟩
    · rw [table?_modifyEntry_self] at ht
      obtain ⟨e, he, rfl⟩ := Option.map_eq_some_iff.1 ht
      exact hf e rfl he ha
    · unfold Displays table? at hv
      rw [Option.map_map] at hv
      obtain ⟨e, he, -⟩ := Option.map_eq_some_iff.1 hv
      refine ⟨(f e).table.content, ?_, fun hb => absurd rfl hb⟩
      unfold Displays
      rw [table?_modifyEntry_self, he]
      rfl
  · exact (kept_of_table? (table?_modifyEntry_of_ne hb f)).told

/-- So does one that leaves what the table shows. -/
theorem kept_modifyEntry {f : TableEntry → TableEntry}
    (hf : ∀ e, b = c → s.tables[c]? = some e → s.Audible c → (f e).table.layout.blocked = false)
    (hcontent : ∀ e, (f e).table.content = e.table.content) : Kept c s (s.modifyEntry b f) := by
  refine ⟨fun ha => (told_modifyEntry hf ha).1, fun v hv => ?_⟩
  by_cases hb : b = c
  · subst hb
    unfold Displays table? at hv
    rw [Option.map_map] at hv
    obtain ⟨e, he, rfl⟩ := Option.map_eq_some_iff.1 hv
    unfold Displays
    rw [table?_modifyEntry_self, he]
    exact congrArg some (hcontent e)
  · exact (kept_of_table? (table?_modifyEntry_of_ne hb f)).displays v hv

/-- The layout signal of an audible table is open. -/
theorem Audible.layout {e : TableEntry} (h : s.Audible c) (he : s.tables[c]? = some e) :
    e.table.layout.blocked = false :=
  h e.table (table?_eq_some_iff.2 ⟨e, he, rfl⟩)

/-- Receivers may come and go, and only the layout signal must not be blocked. -/
theorem kept_setSignal {channel : Channel} {signal : Signal Receiver}
    (h : channel = .layout c → s.Audible c → signal.blocked = false) :
    Kept c s (s.setSignal channel signal) := by
  cases channel with
  | items | binding => exact kept_of_tables rfl
  | grouped b | expanded b | collapsed b =>
    exact kept_modifyEntry (fun e _ he ha => ha.layout (e := e) he) fun _ => rfl
  | layout b => exact kept_modifyEntry (fun _ hb _ ha => h (hb ▸ rfl) ha) fun _ => rfl

/-- The layout of an audible table goes out. -/
theorem Audible.signal (h : s.Audible c) : (s.signal (.layout c)).blocked = false := by
  unfold Session.signal
  dsimp only
  cases ht : s.table? c with
  | none => rfl
  | some t => exact h t ht

theorem kept_connect (channel : Channel) (r : Receiver) : Kept c s (s.connect channel r).2 :=
  kept_setSignal fun hc ha => by subst hc; exact ha.signal

theorem kept_disconnect (channel : Channel) (id : Option SlotId) :
    Kept c s (s.disconnect channel id).2 :=
  kept_setSignal fun hc ha => by subst hc; cases id <;> exact ha.signal

/-- A release keeps all tables, that which is released among them. -/
theorem kept_release (b : TableId) : Kept c s (s.release b) := by
  unfold release
  split
  · split
    · exact kept_refl c s
    · exact (kept_disconnect _ _).trans (kept_disconnect _ _)
  · exact kept_refl c s

/-- The layout signal of a new table is not blocked. -/
theorem kept_openTable (settings : Settings) : Kept c s (s.openTable settings) := by
  let connected := ((s.connect .items (.table s.tables.length)).2.connect .binding
    (.table s.tables.length)).2
  have hconnected : Kept c s connected := (kept_connect _ _).trans (kept_connect _ _)
  refine hconnected.trans ⟨fun ha t ht => ?_, fun v hv => ?_⟩
  · have hall : (s.openTable settings).EachTable fun b e => b = c → e.table.layout.blocked = false :=
      EachTable.append (s := connected) (fun b e he hb => ha.layout (hb ▸ he)) fun _ => rfl
    obtain ⟨e, rfl, he⟩ := EachTable.table hall ht
    exact he rfl
  · unfold Displays table? at hv ⊢
    rw [Option.map_map] at hv ⊢
    obtain ⟨e, he, rfl⟩ := Option.map_eq_some_iff.1 hv
    change Option.map _ (connected.tables ++ [_])[c]? = _
    rw [List.getElem?_append_left (List.getElem?_eq_some_iff.1 he).1, he]
    rfl

/-- A rebuilt table may show something else. -/
theorem told_rebuild (b : TableId) (properties : List String) (expandAll : Bool) :
    Told (b ≠ c) c s [] (s.rebuild b properties expandAll) := by
  unfold rebuild
  split
  · exact (kept_refl c s).told
  · exact (kept_write s _).told.trans
      (told_modifyEntry fun e _ he ha => ha.layout (e := e) he)

/-- So may one whose groups are opened or closed. -/
theorem told_rearrange (b : TableId) (f : Arrangement → Arrangement) :
    Told (b ≠ c) c s [] (s.rearrange b f) := by
  unfold rearrange
  split
  · exact (kept_refl c s).told
  · exact (kept_write s _).told.trans
      (told_modifyEntry fun e _ he ha => ha.layout (e := e) he)

theorem kept_look (b : TableId) : Kept c s (s.look b) := by
  unfold look
  split
  · exact kept_refl c s
  · exact (kept_write s _).trans
      (kept_modifyEntry (fun e _ he ha => ha.layout (e := e) he) fun _ => rfl)

/-! ## Calls -/

/-- What happens while notices are delivered is told, and a notice of the layout goes out. -/
structure Heedful (d : Delivery) (c : TableId) : Prop where
  told : ∀ n s ns s', d n s ns s' → Told True c s ns s'
  sent : ∀ s ns s', d (.layout c) s ns s' → s.Audible c → .layout c ∈ ns

/-- However the call ends, the table shows the same as before, or its layout has been announced. -/
def Tells {α : Type} (d : Delivery) (c : TableId) (m : Call α) : Prop :=
  ∀ s ns answer s', Call.Ends d m s ns answer s' → Told True c s ns s'

variable {α β : Type} {d : Delivery} {q : TableQuery} {answer : Answer}

theorem tells_pure (answer : α) : Tells d c (pure answer : Call α) := by
  intro s ns a s' h
  obtain ⟨rfl, -, rfl⟩ := h.of_pure
  exact (kept_refl c _).told

theorem Tells.bind {m : Call α} {f : α → Call β} (h : Tells d c m)
    (hf : ∀ answer, Tells d c (f answer)) : Tells d c (m >>= f) := by
  rintro s ns b t hend
  obtain ⟨ns₁, a, s', ns₂, hm, hrest, rfl⟩ := hend.of_bind
  exact (h _ _ _ _ hm).trans (hf a _ _ _ _ hrest)

theorem Tells.map {m : Call α} (h : Tells d c m) (f : α → β) :
    Tells d c (do return f (← m)) :=
  h.bind fun _ => tells_pure _

theorem tells_read {f : Session → Call β} (h : ∀ s, Tells d c (f s)) : Tells d c (read >>= f) :=
  fun s ns b t hend => h s s ns b t hend.of_read

/-- A change that keeps the table has nothing to tell. -/
theorem tells_change {f : Session → Session} (h : ∀ s, Kept c s (f s)) : Tells d c (change f) := by
  intro s' ns answer s'' hend
  cases hend
  exact (h s').told

/-- A delivery that is told may be made. -/
theorem tells_send (hd : Heedful d c) (n : Notice) : Tells d c (send n) := by
  intro s ns answer s' hend
  cases hend with
  | sends hn hrest =>
    cases hrest
    rw [List.append_nil]
    exact hd.told n _ _ _ hn

/-- A change of a table is settled as soon as the layout is announced. -/
theorem Heedful.settle (hd : Heedful d c) (h : Told (b ≠ c) c s ns s')
    (hn : d (.layout b) s' ms t) : Told True c s (ns ++ ms) t := by
  refine Told.settle (h.trans ((hd.told _ _ _ _ hn).settle (fun hp => absurd trivial hp) _)) ?_ _
  intro hb ha
  obtain rfl := Decidable.not_not.1 hb
  exact List.mem_append_right ns (hd.sent _ _ _ hn (h ha).1)

/-- A change of a table that is announced, perhaps after other notices, is told. -/
theorem Heedful.announced (hd : Heedful d c) {f : Session → Session} {m : Call Unit}
    (hf : ∀ s, Told (b ≠ c) c s [] (f s)) (hm : Tells d c m) (answer : α) :
    Tells d c (do change f; m; send (.layout b); return answer) := by
  intro s ns a s' hend
  obtain ⟨ns₁, _, s₁, _, hm₁, hsent, rfl⟩ := hend.of_change.of_bind
  obtain ⟨ns₂, s₂, _, hn, hpure, rfl⟩ := hsent.of_send
  obtain ⟨rfl, -, rfl⟩ := hpure.of_pure
  rw [List.append_nil]
  exact hd.settle ((hf s).trans ((hm _ _ _ _ hm₁).settle (fun hp => absurd trivial hp) _)) hn

/-! ## Steps and questions -/

/-- To rearrange another table has nothing to tell of this one. -/
theorem told_rearranges {f : Session → Session} (h : Rearranges b f) (s : Session) :
    Told (b ≠ c) c s [] (f s) := by
  induction h generalizing s with
  | rebuild properties expandAll => exact told_rebuild b properties expandAll
  | rearrange f => exact told_rearrange b f
  | write records _ ih => exact (kept_write s records).told.trans (ih (s.write records))

/-- All that announcing calls are composed of tells of a change. -/
theorem announcing_tells (hd : Heedful d c) (b : TableId) : Announcing (Tells d c) b where
  pure := tells_pure
  bind := Tells.bind
  read := tells_read
  look := tells_change fun _ => kept_look b
  send _ := tells_send hd _
  announced answer hf hm := hd.announced (told_rearranges hf) hm answer

/-- Every call on a table tells what it does, since those do of which it is made. -/
theorem working_tells (hd : Heedful d c) : Working fun {_} m => ∀ b, True → Tells d c (m b) :=
  Announcing.working fun b _ => announcing_tells hd b

/-- A call on any table tells of a change, with its beginning and end. -/
theorem tells_calling (b : TableId) {call : Call Answer} (h : Tells d c call) :
    Tells d c (calling b call) := by
  have hcount : ∀ (s : Session) (f : TableEntry → TableEntry), (∀ e, (f e).table = e.table) →
      Kept c s (s.modifyEntry b f) := fun s f hf =>
    kept_modifyEntry (fun e _ he ha => hf e ▸ ha.layout he) fun e => congrArg _ (hf e)
  refine tells_read fun s => ?_
  split
  · refine (tells_change fun s => ?_).bind fun _ => h.bind fun _ =>
      (tells_change fun s => ?_).bind fun _ => tells_pure _
    · exact hcount s _ fun _ => rfl
    · have hcalls := hcount s (fun e => { e with calls := e.calls - 1 }) fun _ => rfl
      exact hcalls.trans (kept_release b)
  · exact tells_pure _

/-- Who uses a signal tells no less than what is done with it. -/
theorem tells_onChannel (channel : Channel) {use : Call Answer} (h : Tells d c use) :
    Tells d c (onChannel channel use) := by
  refine tells_read fun s => ?_
  split
  · exact h
  · exact tells_pure _

/-- Steps on the source leave all tables to those who hear of them. -/
theorem sourcing_tells (hd : Heedful d c) : Sourcing fun {_} m => Tells d c m where
  pure := tells_pure
  bind := Tells.bind
  read _ := tells_read
  setStore _ := tells_change fun _ => kept_of_tables rfl
  setBinding _ := tells_change fun _ => kept_of_tables rfl
  write _ := tells_change fun _ => kept_of_tables rfl
  send n _ := tells_send hd n

/-- Every step on the source tells of a change. -/
theorem tells_runSource (hd : Heedful d c) (step : SourceStep) : Tells d c (runSource step) :=
  (sourcing_tells hd).runSource step

/-- Code outside does not block the layout signal of the table. -/
def Spares (c : TableId) (_ : Session) (step : Step) : Prop := step ≠ .block (.layout c) true

/-- Every step tells of a change, unless it blocks the layout signal. -/
theorem tells_runStep (hd : Heedful d c) {step : Step} (h : step ≠ .block (.layout c) true) :
    Tells d c (runStep step) := by
  cases step with
  | source step => exact tells_runSource hd step
  | askSource query => exact tells_read fun s => tells_pure _
  | openTable recipe =>
    simp only [runStep]
    split
    · exact tells_pure _
    · exact tells_read fun s => (tells_change fun s => kept_openTable _).bind fun _ => tells_pure _
  | closeTable b =>
    refine tells_read fun s => (tells_change fun s => ?_).bind fun _ => tells_pure _
    unfold closeTable
    split
    · refine Kept.trans ?_ (kept_release b)
      exact kept_modifyEntry (fun e _ he ha => ha.layout (e := e) he) fun _ => rfl
    · exact kept_refl c s
  | table b step => exact tells_calling b ((working_tells hd).runTable step b trivial)
  | askTable b query =>
    exact tells_calling b ((working_tells hd).askTable
      (fun b _ => (announcing_tells hd b).settings) query b trivial)
  | block channel on =>
    refine tells_onChannel channel ((tells_change fun s => kept_setSignal fun hc _ => ?_).bind
      fun _ => tells_read fun s => tells_pure _)
    subst hc
    cases on with
    | false => rfl
    | true => exact absurd rfl h
  | connections channel => exact tells_onChannel channel (tells_read fun s => tells_pure _)
  | listen name channel script times =>
    refine tells_onChannel channel ((tells_change fun s => ?_).bind fun _ => tells_pure _)
    exact (kept_connect channel _).trans (kept_of_tables rfl)
  | unlisten name channel =>
    refine tells_onChannel channel (Tells.map (tells_read fun s => ?_) _)
    exact (tells_change fun s => kept_disconnect channel _).bind fun _ => tells_pure _
  | hold b name =>
    refine tells_calling b (Tells.map ?_ _)
    refine ((working_tells hd).visible b trivial).bind fun _ =>
      (tells_change fun s => ?_).bind fun _ => tells_pure _
    exact kept_of_tables rfl
  | held name => exact tells_read fun s => tells_pure _

/-! ## Runs -/

/-- To act is told if all that happens meanwhile is. -/
theorem told_acts (hd : Heedful d c) (h : Acts (Spares c) d s ns s') : Told True c s ns s' := by
  induction h with
  | rest => exact (kept_refl c _).told
  | note listeners names held journal _ ih =>
    have hnoted := ih.trans (Kept.told (kept_of_tables rfl))
    rwa [List.append_nil] at hnoted
  | call _ hspares hend ih => exact ih.trans (tells_runStep hd hspares _ _ _ _ hend)

/-- What a receiver does with a notice by itself changes no rows of any table. -/
theorem kept_receive (n : Notice) (r : Receiver) : Kept c s (s.receive n r) := by
  cases r with
  | journal | listener => exact kept_of_tables rfl
  | table b =>
    exact (kept_write s _).trans
      (kept_modifyEntry (fun e _ he ha => ha.layout (e := e) he) fun _ => rfl)

/-- Listeners that tell of a change do so one after the other. -/
theorem told_called {act : Session → List Notice → Session → Prop}
    (h : ∀ s ns s', act s ns s' → Told True c s ns s') {n : Notice} {receivers : List Receiver}
    (hcalled : Called act n receivers s ns s') : Told True c s ns s' := by
  induction hcalled with
  | nil => exact (kept_refl c _).told
  | cons _ _ ih => exact (Kept.told (kept_receive _ _)).trans ih
  | listener number hact _ ih => exact (h _ _ _ hact).trans ih

/-- Where listeners tell of changes, every delivery does. -/
theorem heedful_delivers {act : Session → List Notice → Session → Prop}
    (h : ∀ s ns s', act s ns s' → Told True c s ns s') : Heedful (Delivers act) c where
  told n s ns s' hn := by
    obtain ⟨ms, t, hcalled, rfl, rfl⟩ := hn
    have hbegun := (Kept.told (kept_write s _)).trans (told_called h hcalled)
    have hall := hbegun.trans (Kept.told (kept_write t [.leave .emission]))
    rw [List.nil_append, List.append_nil] at hall
    exact hall.mono fun _ hn => List.mem_append_right _ hn
  sent s ns s' hn ha := by
    obtain ⟨ms, t, -, rfl, rfl⟩ := hn
    have hunblocked : (s.signal (Notice.layout c).channel).blocked = false := ha.signal
    rw [hunblocked]
    exact List.mem_append_left ms (List.mem_singleton_self _)

/-- Whatever listeners do, deliveries are told. -/
theorem heedful_delivery (c : TableId) (depth : Nat) : Heedful (delivery (Spares c) depth) c := by
  induction depth with
  | zero =>
    refine heedful_delivers ?_
    rintro s _ _ ⟨rfl, rfl⟩
    exact (kept_refl c _).told
  | succ depth ih => exact heedful_delivers fun _ _ _ hact => told_acts ih hact

/-! ## Reads -/

/-- While the source is active, a question about the rows of an open table is asked and answered. -/
structure Reads (d : Delivery) (c : TableId) (q : TableQuery) (s : Session) (ns : List Notice)
    (answer : Answer) (s' : Session) : Prop where
  aboutRows : q.AboutRows
  isOpen : s.isOpen c = true
  isActive : s.source.isActive = true
  ends : Call.Ends d (runStep (.askTable c q)) s ns answer s'

/-- The answer to a question about rows is that of a snapshot which the table keeps. The table is
still there after its change has been applied, whatever listeners have done. -/
theorem Reads.exists_snapshot (h : Reads d c q s ns answer s') (hd : Heedful d c)
    (ha : s.Audible c) :
    ∃ t v, s'.table? c = some t ∧ t.arrangement.snapshot = some v ∧ answer = v.reply q := by
  obtain ⟨t₀, ht₀⟩ := exists_table_of_isOpen h.isOpen
  have henter : Kept c s (s.enter c) :=
    kept_modifyEntry (fun e _ he ha => ha.layout (e := e) he) fun _ => rfl
  have hend := h.ends
  rw [runStep, askTable_eq_askRows h.aboutRows, calling] at hend
  replace hend := hend.of_read
  rw [if_pos h.isOpen] at hend
  obtain ⟨ns₁, _, s₁, ns₂, hanswer, hleave, rfl⟩ := hend.of_change.of_bind
  obtain ⟨-, rfl, rfl⟩ := hleave.of_change.of_pure
  obtain ⟨ns₃, v, s₂, ns₄, hvisible, hreply, rfl⟩ := hanswer.of_bind
  obtain ⟨-, rfl, rfl⟩ := hreply.of_pure
  have hvisible' := hvisible.of_read
  rw [if_pos (show (s.enter c).source.isActive = true from h.isActive)] at hvisible'
  obtain ⟨ns₅, _, s₃, ns₆, hsync, hlook, rfl⟩ := hvisible'.of_bind
  obtain ⟨-, rfl, rfl⟩ := hlook.of_read.of_change.of_pure
  obtain ⟨-, hdisplays⟩ := (announcing_tells hd c).sync _ _ _ _ hsync (henter.audible ha)
  obtain ⟨v, hshown, -⟩ := hdisplays t₀.content (henter.displays _ (congrArg _ ht₀))
  obtain ⟨t, ht, -⟩ := Option.map_eq_some_iff.1 hshown
  have hlooked : (s₃.look c).table? c = some { t with arrangement := t.arrangement.looked } := by
    unfold look
    rw [ht]
    exact table?_modifyTable (s := s₃.write _) ht _
  have hleft : ((s₃.look c).leave c).table? c = (s₃.look c).table? c := by
    unfold leave table?
    rw [tables_release]
    change ((s₃.look c).modifyEntry c _).table? c = _
    rw [table?_modifyEntry_self]
  refine ⟨_, _, hleft.trans hlooked, rfl, ?_⟩
  rw [ht]
  rfl

/-- What code outside has done leaves the table coherent, and its layout signal open. -/
theorem acts_ofStore {store : ItemStore} {log : List LogRecord} {depth : Nat}
    (h : Acts (Spares c) (delivery (Spares c) depth) (ofStore store log) ns s) :
    s.Audible c ∧ s.AllCoherent := by
  have hreaches : Moment.Reaches (Spares c) ⟨ofStore store log, []⟩ ⟨s, []⟩ :=
    Moment.leads_delivery depth _ _ _ [] h Moment.isFree_nil
  refine ⟨(told_acts (heedful_delivery c depth) h fun t ht => ?_).1,
    (Moment.safe_allCoherent _).holds (eachArrangement_ofStore _ _) hreaches⟩
  exact absurd ht.symm (Option.some_ne_none t)

/-- A read is answered by the rows of what the table displays after it. -/
theorem Reads.exists_rows (h : Reads d c q s ns answer s') (hd : Heedful d c) (ha : s.Audible c)
    (hcoherent : s'.AllCoherent) :
    ∃ v : GroupTree × Expansion, s'.Displays c v ∧
      answer = (Snapshot.flatten v.1 v.2).reply q := by
  obtain ⟨t, v, ht, hv, rfl⟩ := h.exists_snapshot hd ha
  obtain ⟨e, rfl, he⟩ := EachTable.table hcoherent ht
  refine ⟨e.table.content, congrArg _ ht, ?_⟩
  rw [he.snapshot_eq v hv]
  rfl

/-- Let code outside do anything with a session except block the layout signal of a table, and let
listeners do so too, from inside any notice. Ask the table about its rows while the source is
active, go on, and ask it again while the source is active. Both questions are answered by some
rows, and if these are not the same, then the layout of the table has been announced after the first
answer and before the second. -/
theorem changed_rows_are_announced {store : ItemStore} {log : List LogRecord} {c : TableId}
    {depth : Nat} {q₁ q₂ : TableQuery} {a₁ a₂ : Answer} {s₁ s₂ s₃ s₄ : Session}
    {before during₁ between during₂ : List Notice}
    (hbefore : Acts (Spares c) (delivery (Spares c) depth) (ofStore store log) before s₁)
    (hfirst : Reads (delivery (Spares c) depth) c q₁ s₁ during₁ a₁ s₂)
    (hbetween : Acts (Spares c) (delivery (Spares c) depth) s₂ between s₃)
    (hsecond : Reads (delivery (Spares c) depth) c q₂ s₃ during₂ a₂ s₄) :
    ∃ v₁ v₂ : Snapshot, a₁ = v₁.reply q₁ ∧ a₂ = v₂.reply q₂ ∧
      (v₁ ≠ v₂ → .layout c ∈ between ++ during₂) := by
  have hd := heedful_delivery c depth
  have hspares : ∀ s q, Spares c s (.askTable c q) := fun _ _ => Step.noConfusion
  have hacts₂ := hbefore.call (hspares _ _) hfirst.ends
  have hacts₃ := hacts₂.trans hbetween
  have hacts₄ := hacts₃.call (hspares _ _) hsecond.ends
  obtain ⟨v, hv, hanswer₁⟩ := hfirst.exists_rows hd (acts_ofStore hbefore).1 (acts_ofStore hacts₂).2
  obtain ⟨v', hv', hanswer₂⟩ :=
    hsecond.exists_rows hd (acts_ofStore hacts₃).1 (acts_ofStore hacts₄).2
  refine ⟨_, _, hanswer₁, hanswer₂, fun hne => ?_⟩
  have htold := told_acts hd (hbetween.call (hspares _ _) hsecond.ends)
  obtain ⟨v'', hv'', hor⟩ := (htold (acts_ofStore hacts₂).1).2 v hv
  obtain rfl : v' = v'' := Option.some.inj (hv'.symm.trans hv'')
  refine (hor trivial).resolve_left fun hsame => hne ?_
  rw [hsame]

/-- A listener that hears of a new item opens all groups, so the next read shows other rows. -/
theorem changed_rows_are_announced_by_listener :
    let k := GroupPath.root "kind" .absent
    let d := delivery (Spares 0) 1
    let s₁ := (runAll 1 [
      .openTable (.changes [.properties ["kind"]]),
      .listen "opener" .items [.table 0 .expandAll] 1] (start [])).2
    ∃ during₁ s₂ between s₃ during₂ s₄,
      Reads d 0 .rows s₁ during₁ (.rows []) s₂ ∧
      Acts (Spares 0) d s₂ between s₃ ∧
      Reads d 0 .rows s₃ during₂ (.rows [.group k, .item (.number 1)]) s₄ ∧
      .layout 0 ∈ between ++ during₂ := by
  intro k d s₁
  let before : List Step := [
    .openTable (.changes [.properties ["kind"]]),
    .listen "opener" .items [.table 0 .expandAll] 1]
  let push : Step := .source (.push ⟨.number 1, .empty⟩)
  let read : Step := .askTable 0 .rows
  let ok (step : Step) : Prop := step ∈ before ++ [push, read, .table 0 .expandAll]
  have hp : Moment.Playable (Spares 0) ok := by
    refine ⟨fun s step h hblock => ?_, fun name channel script times h step hstep => ?_⟩
    · simp [ok, before, push, read, hblock] at h
    · simp [ok, before, push, read] at h
      obtain rfl := List.mem_singleton.1 (h.2.2.1 ▸ hstep)
      simp [ok]
  have hd : Moment.Realizes (emit 1) ok d := Moment.realizes_emit hp 1
  have hbefore : ∀ step ∈ before, ok step := fun step h => List.mem_append_left _ h
  have hpush : ∀ step ∈ [push], ok step := by simp [ok]
  have hread : ok read := by simp [ok]
  let s₂ := ((runStep read).run (emit 1) s₁).2
  let s₃ := (runAll 1 [push] s₂).2
  obtain ⟨hs₁, _, hacts₁⟩ := Moment.acts_runAll hp 1 hbefore
    (show Moment.Scripted ok (start []) from fun l hl => absurd hl List.not_mem_nil)
  obtain ⟨hs₂, during₁, hread₁⟩ := hd.step hp hs₁ hread
  obtain ⟨hs₃, between, hbetween⟩ := Moment.acts_runAll hp 1 hpush hs₂
  obtain ⟨-, during₂, hread₂⟩ := hd.step hp hs₃ hread
  let listed (a : Answer) : Option (List Row) := match a with
    | .rows rows => some rows
    | _ => none
  have hlisted : ∀ a rows, listed a = some rows → a = .rows rows := by
    intro a rows h
    cases a <;> simp_all [listed]
  have hanswer₁ : ((runStep read).run (emit 1) s₁).1 = .rows [] :=
    hlisted _ _ (by decide +kernel)
  have hanswer₂ : ((runStep read).run (emit 1) s₃).1 = .rows [.group k, .item (.number 1)] :=
    hlisted _ _ (by decide +kernel)
  have hfirst : Reads d 0 .rows s₁ during₁ (.rows []) s₂ :=
    ⟨trivial, by decide +kernel, by decide +kernel, hanswer₁ ▸ hread₁⟩
  have hsecond : Reads d 0 .rows s₃ during₂ (.rows [.group k, .item (.number 1)])
      ((runStep read).run (emit 1) s₃).2 :=
    ⟨trivial, by decide +kernel, by decide +kernel, hanswer₂ ▸ hread₂⟩
  refine ⟨_, _, _, _, _, _, hfirst, hbetween, hsecond, ?_⟩
  obtain ⟨v₁, v₂, h₁, h₂, hchanged⟩ := changed_rows_are_announced hacts₁ hfirst hbetween hsecond
  refine hchanged fun hsame => ?_
  have hrows := (Answer.rows.inj h₁).trans (Answer.rows.inj (hsame ▸ h₂)).symm
  exact absurd (congrArg List.length hrows) (by decide)

end Session

end GroupedRows
