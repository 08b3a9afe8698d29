import GroupedRows.Proofs.Session.Reading
import GroupedRows.Proofs.Session.Tidy

/-!
# Questions do not move rows

A question may apply a pending change and take a snapshot, but it changes neither the
source nor what any table shows: a table shows the rows that it will have once it has
applied the change.
-/

namespace GroupedRows

open Call Session

/-- Whether a table is open, and what it shows. -/
def TableEntry.sight (source : Source) (e : TableEntry) : Bool × Snapshot :=
  (e.isOpen, e.table.shown source)

namespace Table

/-- To apply a pending change is no change of what a table shows. -/
theorem shown_synced (t : Table) (source : Source) :
    (t.synced source).shown source = t.shown source := by
  unfold shown
  rw [synced_synced]

/-- Neither is it to keep a snapshot. -/
theorem shown_looked (t : Table) (source : Source) :
    ({ t with arrangement := t.arrangement.looked } : Table).shown source = t.shown source := by
  unfold shown synced
  dsimp only
  split
  · split <;> rfl
  · rfl

end Table

namespace Session

/-- The source is the same, and the same tables are open and show the same. -/
structure Unmoved (s s' : Session) : Prop where
  source : s'.source = s.source
  tables : ∀ c : TableId, s'.tables[c]?.map (TableEntry.sight s.source) =
    s.tables[c]?.map (TableEntry.sight s.source)

variable {s s' s'' : Session} {c : TableId}

/-- Where source and tables are the same, nothing moves. -/
theorem Unmoved.of_eq (hsource : s'.source = s.source) (htables : s'.tables = s.tables) :
    Unmoved s s' :=
  ⟨hsource, fun _ => by rw [htables]⟩

/-- Where nothing happens, nothing moves. -/
theorem Unmoved.refl (s : Session) : Unmoved s s := .of_eq rfl rfl

/-- What is not moved twice is not moved. -/
theorem Unmoved.trans (h : Unmoved s s') (h' : Unmoved s' s'') : Unmoved s s'' where
  source := h'.source.trans h.source
  tables c := by
    have htables := h'.tables c
    rw [h.source] at htables
    exact htables.trans (h.tables c)

theorem Unmoved.isOpen_eq (h : Unmoved s s') (c : TableId) : s'.isOpen c = s.isOpen c := by
  have hc := congrArg (Option.map Prod.fst) (h.tables c)
  rw [Option.map_map, Option.map_map] at hc
  have hopen : ∀ o : Option TableEntry, o.any TableEntry.isOpen =
      (o.map (Prod.fst ∘ TableEntry.sight s.source)).getD false := by
    intro o
    cases o <;> rfl
  unfold isOpen
  rw [hopen, hopen, hc]

/-- The same tables show the same. -/
theorem Unmoved.shown_eq (h : Unmoved s s') {t t' : Table} (ht : s.table? c = some t)
    (ht' : s'.table? c = some t') : t'.shown s'.source = t.shown s.source := by
  obtain ⟨e, he, rfl⟩ := table?_eq_some_iff.1 ht
  obtain ⟨e', he', rfl⟩ := table?_eq_some_iff.1 ht'
  have hc := h.tables c
  rw [he, he'] at hc
  rw [h.source]
  exact congrArg Prod.snd (Option.some.inj hc)

/-- A change of one entry moves nothing if the table is as open and shows the same. -/
theorem unmoved_modifyEntry {f : TableEntry → TableEntry}
    (hf : ∀ e, s.tables[c]? = some e → (f e).sight s.source = e.sight s.source) :
    Unmoved s (s.modifyEntry c f) := by
  refine ⟨rfl, fun d => ?_⟩
  change (s.tables.modify c f)[d]?.map _ = _
  rw [List.getElem?_modify]
  cases he : s.tables[d]? with
  | none => rfl
  | some e =>
    by_cases hd : c = d
    · subst hd
      simp [hf e he]
    · simp [hd]

theorem unmoved_modifyTable {f : Table → Table}
    (hf : ∀ t, s.table? c = some t → (f t).shown s.source = t.shown s.source) :
    Unmoved s (s.modifyTable c f) :=
  unmoved_modifyEntry fun e he => Prod.ext rfl (hf e.table (table?_eq_some_iff.2 ⟨e, he, rfl⟩))

theorem unmoved_write (s : Session) (records : List LogRecord) : Unmoved s (s.write records) :=
  .of_eq rfl rfl

theorem unmoved_look (s : Session) (c : TableId) : Unmoved s (s.look c) := by
  unfold look
  split
  · exact .refl s
  · exact (unmoved_write s _).trans (unmoved_modifyTable fun t _ => t.shown_looked s.source)

/-- A stale table shows what it has once it is rebuilt. -/
theorem unmoved_rebuild {t : Table} (ht : s.table? c = some t) (hstale : t.stale = true) :
    Unmoved s (s.rebuild c t.properties false) := by
  unfold rebuild
  rw [ht]
  refine (unmoved_write s _).trans (unmoved_modifyTable fun t' ht' => ?_)
  obtain rfl : t = t' := Option.some.inj (ht.symm.trans ht')
  have hsynced : t.synced s.source = t.rebuilt s.source t.properties false := if_pos hstale
  change (t.rebuilt s.source t.properties false).shown s.source = t.shown s.source
  rw [← hsynced]
  exact t.shown_synced s.source

/-- Where listeners are quiet, nobody who hears of a layout interferes. -/
theorem Deaf.layoutIgnored (h : s.Deaf) (hquiet : s.Quiet) (depth : Nat) (c : TableId) :
    LayoutIgnored (emit depth) s c := by
  intro t ht
  have hrebuild : Alters (fun _ _ => True) s (s.rebuild c t.properties false) := .rebuild c _ false
  have hdeaf : (s.rebuild c t.properties false).Deaf := Deaf.alters h hrebuild
  have hquiet' : (s.rebuild c t.properties false).Quiet := by
    unfold rebuild
    split <;> exact hquiet
  obtain ⟨hsource, htables⟩ := Deaf.emit_table hdeaf hquiet' depth (n := .layout c) rfl
  have htable := table?_rebuild ht t.properties false
  refine ⟨hsource.trans (source_rebuild s c _ _), ?_⟩
  unfold table? at htable ⊢
  rw [htables, htable]

namespace Tidy

/-- In a tidy session nobody who hears of a layout interferes. -/
theorem layoutIgnored (h : s.Tidy) (depth : Nat) (c : TableId) :
    LayoutIgnored (Session.emit depth) s c :=
  h.deaf.layoutIgnored h.quiet depth c

/-- To apply a pending change moves nothing. -/
theorem unmoved_sync (h : s.Tidy) (depth : Nat) (c : TableId) :
    Unmoved s ((sync c).run (Session.emit depth) s).2 := by
  cases ht : s.table? c with
  | none =>
    rw [run_sync_of_none ht]
    exact .refl s
  | some t =>
    rw [run_sync ht]
    split
    · rename_i hstale
      have hrebuilt : (s.rebuild c t.properties false).Tidy :=
        h.alters (.rebuild c t.properties false)
      obtain ⟨hsource, htables⟩ :=
        Deaf.emit_table hrebuilt.deaf hrebuilt.quiet depth (n := .layout c) rfl
      exact (unmoved_rebuild ht hstale).trans (.of_eq hsource htables)
    · exact .refl s

end Tidy

/-! ## Calls that ask -/

/-- The call moves nothing in a tidy session. -/
structure Asks {α : Type} (depth : Nat) (m : Call α) : Prop where
  follows : Follows (fun _ => Step.Tame) m
  unmoved : ∀ s, s.Tidy → Unmoved s (m.run (emit depth) s).2

variable {α β : Type} {depth : Nat}

theorem asks_pure (answer : α) : Asks depth (pure answer : Call α) :=
  ⟨follows_pure answer, fun s _ => .refl s⟩

theorem Asks.bind {m : Call α} {f : α → Call β} (h : Asks depth m)
    (hf : ∀ answer, Asks depth (f answer)) : Asks depth (m >>= f) where
  follows := h.follows.bind fun answer => (hf answer).follows
  unmoved s hs := by
    rw [run_bind]
    exact (h.unmoved s hs).trans ((hf _).unmoved _ (hs.run depth (h.follows s)))

theorem asks_read : Asks depth read :=
  ⟨fun _ => .refl, fun s _ => .refl s⟩

/-- No question to a table moves anything. -/
theorem asking_asks : Asking fun {_} m => ∀ c, Asks depth (m c) where
  pure answer _ := asks_pure answer
  bind hm hf c := (hm c).bind fun answer => hf answer c
  ask _ _ := asks_read.bind fun _ => asks_pure _
  sync c := ⟨follows_sync c, fun _ hs => hs.unmoved_sync depth c⟩
  look c := ⟨follows_change (altered_look c), fun s _ => unmoved_look s c⟩

theorem asks_settings (c : TableId) : Asks depth (askTable c .settings) :=
  asks_read.bind fun _ => asks_pure _

theorem asks_hold (c : TableId) (name : String) : Asks depth (hold c name) := by
  refine (asking_asks.visible c).bind fun v => Asks.bind ?_ fun _ => asks_pure _
  exact ⟨follows_change fun _ => .single (.hold _), fun s _ => .of_eq rfl rfl⟩

/-- An open table is not disconnected. -/
theorem release_of_isOpen (h : s.isOpen c = true) : s.release c = s := by
  unfold release
  split
  · rename_i e he
    unfold isOpen at h
    rw [he, Option.any_some] at h
    exact if_pos (.inl h)
  · rfl

/-- A question to an open table is asked while its call is counted. -/
theorem Tidy.run_calling (h : s.Tidy) {call : Call Answer} (hcall : Asks depth call)
    (hopen : s.isOpen c = true) :
    ((calling c call).run (Session.emit depth) s).1 =
        (call.run (Session.emit depth) (s.enter c)).1 ∧
      Unmoved s ((calling c call).run (Session.emit depth) s).2 := by
  have henter : Unmoved s (s.enter c) := unmoved_modifyEntry fun _ _ => rfl
  have hentered : (s.enter c).Tidy := h.alters (.enter c hopen)
  have hasked := hcall.unmoved _ hentered
  simp only [calling, run_bind, run_read, hopen, if_true, run_change, run_pure]
  generalize (call.run (Session.emit depth) (s.enter c)).2 = s' at hasked
  have hleft : Unmoved s' (s'.modifyEntry c fun e => { e with calls := e.calls - 1 }) :=
    unmoved_modifyEntry fun _ _ => rfl
  have hall := (henter.trans hasked).trans hleft
  refine ⟨trivial, ?_⟩
  unfold leave
  rw [release_of_isOpen ((hall.isOpen_eq c).trans hopen)]
  exact hall

/-- A call that moves nothing does so with its beginning and end. -/
theorem Tidy.unmoved_calling (h : s.Tidy) {call : Call Answer} (hcall : Asks depth call)
    (c : TableId) : Unmoved s ((calling c call).run (Session.emit depth) s).2 := by
  cases hopen : s.isOpen c with
  | true => exact (h.run_calling hcall hopen).2
  | false =>
    simp only [calling, run_bind, run_read, hopen, Bool.false_eq_true, if_false, run_pure]
    exact .refl s

end Session

/-- The step only asks the source or a table, or deals with rows that are held. -/
def Step.Asks : Step → Prop
  | .askSource _ | .askTable _ _ | .connections _ | .hold _ _ | .held _ => True
  | _ => False

/-- Questions are tame. -/
theorem Step.Asks.tame {step : Step} (h : step.Asks) : step.Tame := by
  cases step with
  | askSource | askTable | connections | hold | held => trivial
  | source | openTable | closeTable | table | block | listen | unlisten => exact h.elim

namespace Session.Tidy

variable {s : Session}

theorem unmoved_runStep (h : s.Tidy) (depth : Nat) {step : Step} (hstep : step.Asks) :
    Unmoved s ((Session.runStep step).run (Session.emit depth) s).2 := by
  cases step with
  | askSource query => exact .refl s
  | askTable c query => exact h.unmoved_calling (asking_asks.askTable asks_settings query c) c
  | connections channel =>
    refine Asks.unmoved (asks_read.bind fun s => ?_) s h
    split
    · exact asks_read.bind fun _ => asks_pure _
    · exact asks_pure _
  | hold c name => exact h.unmoved_calling ((asks_hold c name).bind fun _ => asks_pure _) c
  | held name => exact .refl s
  | source | openTable | closeTable | table | block | listen | unlisten => exact hstep.elim

/-- No questions move anything. -/
theorem unmoved_runAll (h : s.Tidy) (depth : Nat) {questions : List Step}
    (hquestions : ∀ step ∈ questions, step.Asks) :
    Unmoved s (Session.runAll depth questions s).2 := by
  induction questions generalizing s with
  | nil => exact .refl s
  | cons step rest ih =>
    have hstep := hquestions step List.mem_cons_self
    obtain ⟨hquiet, hindexed, hcoherent, hdistinct, hdeaf⟩ := h.runStep depth hstep.tame
    have hmoved := h.unmoved_runStep depth hstep
    let next := ((Session.runStep step).run (Session.emit depth) s).2
    have hcleared : Unmoved next { next with journal := [] } := .of_eq rfl rfl
    have hrest := ih (s := { next with journal := [] })
      ⟨hquiet, hindexed, hcoherent, hdistinct, hdeaf⟩
      fun step hm => hquestions step (List.mem_cons_of_mem _ hm)
    exact (hmoved.trans hcleared).trans hrest

end Session.Tidy

end GroupedRows
