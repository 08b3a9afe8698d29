import GroupedRows.Proofs.Session.Bystanders

/-!
# Steps of a table on its own

A session of many tables and one of a single table stay alike when the same step is made
in both: when the table is made or closed, calls on it begin or return, or listeners are
connected to its signals and disconnected. Each of these steps is answered alike.
-/

namespace GroupedRows

open Call Session

namespace Session

variable {owns : String → Channel → Prop} {a : TableId} {made : Nat} {s s' : Session}

/-! ## Sessions that stay alike -/

namespace Alike

/-- The table alone is open if the table is. -/
theorem isOpen_eq (h : Alike owns a made s s') : s'.isOpen 0 = s.isOpen a := by
  have hopen : ∀ (s : Session) (c : TableId),
      s.isOpen c = (s.tables[c]?.map TableEntry.core).any Core.isOpen := by
    intro s c
    unfold isOpen
    cases s.tables[c]? <;> rfl
  rw [hopen, hopen, h.entry]

/-- The table alone has the channels of the table. -/
theorem hasChannel_eq (h : Alike owns a made s s') (line : Line) :
    s'.hasChannel (line.channel 0) = s.hasChannel (line.channel a) := by
  cases line with
  | items | binding => rfl
  | grouped | expanded | collapsed | layout => exact h.isOpen_eq

/-- A call on the table may begin in both sessions. -/
theorem enter (h : Alike owns a made s s') (hopen : s.isOpen a = true) :
    Alike owns a made (s.enter a) (s'.enter 0) where
  orderly := h.orderly.enter hopen
  alone := h.alone.enter (h.isOpen_eq.trans hopen)
  made := (List.length_modify ..).trans h.made
  store := h.store
  binding := h.binding
  entry := by
    let g : Core → Core := fun core => { core with calls := core.calls + 1 }
    have hentry := core_modifyEntry s a (f := fun e => { e with calls := e.calls + 1 }) (g := g)
      fun _ => rfl
    have hentry' := core_modifyEntry s' 0 (f := fun e => { e with calls := e.calls + 1 }) (g := g)
      fun _ => rfl
    exact (hentry'.trans (congrArg (Option.map g) h.entry)).trans hentry.symm
  blocked line := by
    rw [signal_enter, signal_enter]
    exact h.blocked line
  counted line hline := by
    rw [signal_enter, signal_enter]
    exact h.counted line hline
  connected name line ho := by
    have hconnected := h.connected name line ho
    rw [connected_eq, connected_eq] at hconnected ⊢
    rw [signal_enter, signal_enter]
    exact hconnected
  told := h.told

/-- The table may be closed in both sessions, and calls on it may return. -/
theorem retire (h : Alike owns a made s s') {f : TableEntry → TableEntry} (g : Core → Core)
    (htable : ∀ e, (f e).table = e.table) (hlive : ∀ e, (f e).IsLive → e.IsLive)
    (hg : ∀ e, (f e).core = g e.core) :
    Alike owns a made (release a (s.modifyEntry a f)) (release 0 (s'.modifyEntry 0 f)) := by
  have hreleased : ∀ (s : Session) (c : TableId),
      (release c (s.modifyEntry c f)).source.store = s.source.store ∧
        (release c (s.modifyEntry c f)).source.binding = s.source.binding ∧
        ∀ b, (release c (s.modifyEntry c f)).told b = s.told b := by
    intro s c
    obtain ⟨items, binding, heq⟩ := release_eq (s.modifyEntry c f) c
    rw [heq]
    exact ⟨rfl, rfl, fun _ => rfl⟩
  obtain ⟨hstore, hbinding, htold⟩ := hreleased s a
  obtain ⟨hstore', hbinding', htold'⟩ := hreleased s' 0
  exact {
    orderly := h.orderly.retire a htable fun e _ => hlive e
    alone := h.alone.retire 0 htable fun e _ => hlive e
    made := by
      rw [tables_release]
      exact (List.length_modify ..).trans h.made
    store := hstore'.trans (h.store.trans hstore.symm)
    binding := hbinding'.trans (h.binding.trans hbinding.symm)
    entry := by
      rw [tables_release, tables_release, core_modifyEntry s a hg, core_modifyEntry s' 0 hg,
        h.entry]
    blocked := fun line => by
      rw [blocked_retire 0 htable, blocked_retire a htable]
      exact h.blocked line
    counted := fun line hline => by
      rw [signal_retire 0 htable (Line.table?_channel_of_eq hline 0), signal_retire a htable hline]
      exact h.counted line hline
    connected := fun name line ho => by
      rw [h.alone.connected_retire 0 htable ⟨line, rfl, ho⟩, h.orderly.connected_retire a htable ho]
      exact h.connected name line ho
    told := (htold' 0).trans (h.told.trans (htold a).symm) }

/-- The table may be made in both sessions. -/
theorem openTable (h : Alike owns a a s s') (settings : Settings) :
    Alike owns a (a + 1) (s.openTable settings) (s'.openTable settings) := by
  have hlength := h.made
  have hlength' : s'.tables.length = 0 := by
    have hentry := h.entry
    rw [List.getElem?_eq_none (Nat.le_of_eq hlength)] at hentry
    exact Nat.le_zero.1 (List.getElem?_eq_none_iff.1 (Option.map_eq_none_iff.1 hentry))
  have hcore : ∀ (s : Session) (c : TableId), s.tables.length = c →
      (s.openTable settings).tables[c]?.map TableEntry.core =
        some ⟨true, 0, settings, .start (s.source.tree settings.properties) settings.expandOnGrouping,
          false⟩ := by
    rintro s c rfl
    change Option.map TableEntry.core ((s.tables ++ [_])[s.tables.length]?) = _
    rw [List.getElem?_concat_length]
    rfl
  have hown : ∀ line : Line, (line.channel a).table? = some a →
      (s.openTable settings).signal (line.channel a) = (Signal.empty.connect .journal).2 ∧
        (s'.openTable settings).signal (line.channel 0) = (Signal.empty.connect .journal).2 := by
    intro line hline
    have hline' := Line.table?_channel_of_eq hline 0
    exact ⟨signal_openTable_self settings (hlength ▸ hline),
      signal_openTable_self settings (hlength' ▸ hline')⟩
  exact {
    orderly := h.orderly.openTable settings
    alone := h.alone.openTable settings
    made := List.length_append.trans (congrArg (· + 1) hlength)
    store := h.store
    binding := h.binding
    entry := by
      rw [hcore s a hlength, hcore s' 0 hlength', Source.tree, h.store]
      rfl
    blocked := fun line => by
      rcases Line.table?_channel a 0 line with ⟨hline, hline', -⟩ | ⟨hline, -⟩
      · rw [blocked_openTable settings hline, blocked_openTable settings hline']
        exact h.blocked line
      · rw [(hown line hline).1, (hown line hline).2]
    counted := fun line hline => by rw [(hown line hline).1, (hown line hline).2]
    connected := fun name line ho => by
      rw [h.alone.connected_openTable settings ⟨line, rfl, ho⟩,
        h.orderly.connected_openTable settings ho]
      exact h.connected name line ho
    told := h.told }

/-- A further listener may be connected in both sessions to a signal that the table has or hears. -/
theorem listen (h : Alike owns a made s s') {line : Line} (hk : s.Knows (line.channel a))
    {name : String} {owns' : String → Channel → Prop}
    (ho : ∀ n other, owns' n other → if name = n then line.channel a = other else owns n other)
    (times : Nat) : Alike owns' a made (s.listen name (line.channel a) [] times)
      (s'.listen name (line.channel 0) [] times) := by
  have hk' := (h.knows_iff line).2 hk
  have ho' : ∀ n other, ownsAlone owns' a n other →
      if name = n then line.channel 0 = other else ownsAlone owns a n other := by
    rintro n _ ⟨line', rfl, hn⟩
    have hline := ho n _ hn
    split at hline
    · rename_i hname
      rw [if_pos hname, Line.channel_inj.1 hline]
    · rename_i hname
      rw [if_neg hname]
      exact ⟨line', rfl, hline⟩
  refine (renewed_listen s name (line.channel a) [] times).alike
    (renewed_listen s' name (line.channel 0) [] times) h hk (h.orderly.listen hk ho times)
    (h.alone.listen hk' ho' times) (h.blocked line) (fun hline => ?_) fun n other hn => ?_
  · have hsize := (h.orderly.attended _ hk).sound.size_insert (.listener s.listeners.length)
    have hsize' := (h.alone.attended _ hk').sound.size_insert (.listener s'.listeners.length)
    have hcounted := h.counted line hline
    exact hsize'.trans ((congrArg (· + 1) hcounted).trans hsize.symm)
  · rw [h.orderly.connected_listen hk times (ho n _ hn),
      h.alone.connected_listen hk' times (ho' n _ ⟨other, rfl, hn⟩)]
    have hline := ho n _ hn
    split
    · rfl
    · rename_i hname
      rw [if_neg hname] at hline
      exact h.connected n other hline

/-- What is connected under a name may be disconnected in both sessions. -/
theorem disconnect (h : Alike owns a made s s') {line : Line} (hk : s.Knows (line.channel a))
    {name : String} (ho : owns name (line.channel a)) :
    Alike owns a made (s.disconnect (line.channel a) (s.names.get? name)).2
      (s'.disconnect (line.channel 0) (s'.names.get? name)).2 := by
  have hk' := (h.knows_iff line).2 hk
  have ho' : ownsAlone owns a name (line.channel 0) := ⟨line, rfl, ho⟩
  have hcount : ∀ (signal : Signal Receiver) (id : Option SlotId), (signal.disconnect id).2.count =
      signal.count - if (signal.disconnect id).1 then 1 else 0 := by
    intro signal id
    cases id with
    | none => rfl
    | some id => exact SlotTable.size_remove signal.table id
  have hblocked : ∀ (signal : Signal Receiver) (id : Option SlotId),
      (signal.disconnect id).2.blocked = signal.blocked := fun signal id => by cases id <;> rfl
  refine (renewed_disconnect s (line.channel a) _).alike (renewed_disconnect s' (line.channel 0) _)
    h hk (h.orderly.unlisten hk ho) (h.alone.unlisten hk' ho') ?_ (fun hline => ?_) fun n other hn => ?_
  · rw [hblocked, hblocked]
    exact h.blocked line
  · rw [hcount, hcount, h.counted line hline]
    exact congrArg (fun b : Bool => _ - if b then 1 else 0) (h.connected name line ho)
  · rw [h.orderly.connected_unlisten hk ho hn,
      h.alone.connected_unlisten hk' ho' ⟨other, rfl, hn⟩]
    simp only [Line.channel_inj, h.connected n other hn]

/-- The signal of another table may be replaced in the first session, and may take names over. -/
theorem renew_left (h : Alike owns a made s s') {channel : Channel} {new : Signal Receiver}
    {t : Session} (ht : Renewed channel new s t) (hk : s.Knows channel)
    (hc : channel.line? a = none) {owns' : String → Channel → Prop} (horderly : t.Orderly owns')
    (hsub : ∀ name (line : Line), owns' name (line.channel a) → owns name (line.channel a))
    (hconnected : ∀ name (line : Line), owns' name (line.channel a) →
      t.connected name (line.channel a) = s.connected name (line.channel a)) :
    Alike owns' a made t s' :=
  h.left horderly hsub (ht.length_eq.trans h.made) (ht.sameFor hk hc hconnected)

/-- To block a signal that is none of the table's passes it by. -/
theorem block_left (h : Alike owns a made s s') {channel : Channel} (hk : s.Knows channel)
    (hc : channel.line? a = none) (on : Bool) : Alike owns a made (s.block channel on) s' :=
  h.renew_left (renewed_block s channel on) hk hc (h.orderly.block hk on) (fun _ _ => id)
    fun name _ _ => connected_block hk on name _

/-- To disconnect from a signal that is none of the table's passes it by. -/
theorem disconnect_left (h : Alike owns a made s s') {channel : Channel} (hk : s.Knows channel)
    (hc : channel.line? a = none) {name : String} (ho : owns name channel) :
    Alike owns a made (s.disconnect channel (s.names.get? name)).2 s' :=
  h.renew_left (renewed_disconnect s channel _) hk hc (h.orderly.unlisten hk ho) (fun _ _ => id)
    fun _ line hn => (h.orderly.connected_unlisten hk ho hn).trans
      (if_neg fun he => Channel.ne_of_line?_eq_none hc line he.2.symm)

/-- To connect a listener to a signal that is none of the table's passes it by. -/
theorem listen_left (h : Alike owns a made s s') {channel : Channel} (hk : s.Knows channel)
    (hc : channel.line? a = none) {name : String} {owns' : String → Channel → Prop}
    (ho : ∀ n other, owns' n other → if name = n then channel = other else owns n other)
    (times : Nat) : Alike owns' a made (s.listen name channel [] times) s' := by
  have hother : ∀ n (line : Line), owns' n (line.channel a) →
      name ≠ n ∧ owns n (line.channel a) := by
    intro n line hn
    have hcases := ho n _ hn
    split at hcases
    · exact absurd hcases (Channel.ne_of_line?_eq_none hc line)
    · rename_i hname
      exact ⟨hname, hcases⟩
  exact h.renew_left (renewed_listen s name channel [] times) hk hc (h.orderly.listen hk ho times)
    (fun n line hn => (hother n line hn).2) fun n line hn =>
      (h.orderly.connected_listen hk times (ho n _ hn)).trans (if_neg (hother n line hn).1)

end Alike

/-! ## Steps that are answered -/

/-- Calls that are alike may be made on the table. -/
theorem twin_calling {call call' : Call Answer} (h : Twin owns a made call call') :
    Twin owns a made (calling a call) (calling 0 call') := by
  intro s s' hs depth depth'
  unfold calling
  rw [run_bind, run_bind, run_read, run_read, hs.isOpen_eq]
  split
  · rename_i hopen
    obtain ⟨hanswer, hcalled⟩ := h _ _ (hs.enter hopen) depth depth'
    simp only [run_bind, run_change, run_pure]
    refine ⟨hanswer, hcalled.retire (fun core => { core with calls := core.calls - 1 })
      (fun _ => rfl) (fun e hl => hl.imp_right fun hcalls hzero => hcalls ?_) fun _ => rfl⟩
    simp [hzero]
  · exact ⟨rfl, hs⟩

theorem twin_closeTable :
    Twin owns a made (runStep (.closeTable a)) (runStep (.closeTable 0)) := by
  intro s s' hs depth depth'
  have hanswer := congrArg Answer.flag hs.isOpen_eq.symm
  refine ⟨hanswer, ?_⟩
  change Alike owns a made (Session.closeTable a s) (Session.closeTable 0 s')
  unfold Session.closeTable
  rw [hs.isOpen_eq]
  split
  · rename_i hopen
    refine hs.retire (fun core => { core with isOpen := false }) (fun _ => rfl) (fun e hl => ?_)
      fun _ => rfl
    exact hl.imp (fun hfalse => absurd hfalse Bool.false_ne_true) id
  · exact hs

theorem twin_hold (name : String) :
    Twin owns a made (runStep (.hold a name)) (runStep (.hold 0 name)) := by
  have hvisible : Twin owns a made (visible a) (visible 0) := working_twin.toAsking.visible
  refine twin_calling (Twin.map (hvisible.bind fun snapshot => ?_) Answer.count)
  refine (twin_change fun _ _ h => ?_).bind fun _ => twin_pure snapshot.size
  exact h.relink ⟨rfl, rfl, rfl, rfl, rfl, id⟩ ⟨rfl, rfl, rfl, rfl, rfl, id⟩ h.store h.binding h.entry
    h.told

/-- Questions to the source have the same answers for the table alone. -/
theorem twin_askSource (query : SourceQuery) :
    Twin owns a made (runStep (.askSource query)) (runStep (.askSource query)) := by
  refine sourcing_twin.read (fun s s' hstore hbinding => ?_) fun _ => twin_pure _
  unfold askSource
  rw [hstore, hbinding]

/-- A signal that the table has or hears can be used in both sessions or in none. -/
theorem twin_onChannel (line : Line) {use use' : Call Answer}
    (h : ∀ s s', Alike owns a made s s' → s.Knows (line.channel a) → ∀ depth depth',
      (use.run (emit depth) s).1 = (use'.run (emit depth') s').1 ∧
        Alike owns a made (use.run (emit depth) s).2 (use'.run (emit depth') s').2) :
    Twin owns a made (onChannel (line.channel a) use) (onChannel (line.channel 0) use') := by
  intro s s' hs depth depth'
  unfold onChannel
  rw [run_bind, run_bind, run_read, run_read, hs.hasChannel_eq]
  split
  · rename_i hchannel
    exact h s s' hs (knows_of_hasChannel hchannel) depth depth'
  · exact ⟨rfl, hs⟩

theorem twin_block (line : Line) (on : Bool) :
    Twin owns a made (runStep (.block (line.channel a) on)) (runStep (.block (line.channel 0) on)) := by
  refine twin_onChannel line fun s s' hs hk depth depth' => ?_
  have hk' := (hs.knows_iff line).2 hk
  have hblock : Alike owns a made (s.block (line.channel a) on) (s'.block (line.channel 0) on) := by
    refine (renewed_block s _ on).alike (renewed_block s' _ on) hs hk (hs.orderly.block hk on)
      (hs.alone.block hk' on) rfl (hs.counted line) fun name other ho => ?_
    rw [connected_block hk, connected_block hk']
    exact hs.connected name other ho
  exact ⟨congrArg Answer.flag (hblock.blocked line).symm, hblock⟩

/-- A signal of the table has as many connections as that of the table alone. -/
theorem twin_connections {line : Line} (hline : (line.channel a).table? = some a) :
    Twin owns a made (runStep (.connections (line.channel a)))
      (runStep (.connections (line.channel 0))) :=
  twin_onChannel line fun _ _ hs _ _ _ =>
    ⟨congrArg Answer.count (hs.counted line hline).symm, hs⟩

theorem twin_unlisten {line : Line} {name : String} (ho : owns name (line.channel a)) :
    Twin owns a made (runStep (.unlisten name (line.channel a)))
      (runStep (.unlisten name (line.channel 0))) :=
  twin_onChannel line fun _ _ hs hk _ _ =>
    ⟨congrArg Answer.flag (hs.connected name line ho).symm, hs.disconnect hk ho⟩

end Session

end GroupedRows
