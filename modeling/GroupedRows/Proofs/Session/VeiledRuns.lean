import GroupedRows.Proofs.Session.Veils

/-!
# Runs behind a veil

Whatever step is run, what it answers and what is seen of its changes depends on nothing that a
veil hides. The same holds of the scripts that listeners play, at any depth. So sessions that are
the same as far as they are seen stay so, and no run of steps shows a difference between them.
-/

namespace GroupedRows

open Call

namespace Session

variable {v : Veil} {s s' : Session} {c : TableId} {channel : Channel} {emit : Emit} {α β : Type}

/-! ## Changes -/

/-- What is seen of the change depends on what is seen only. -/
def Respects (v : Veil) (f : Session → Session) : Prop :=
  ∀ s s' : Session, s.veiled v = s'.veiled v → (f s).veiled v = (f s').veiled v

/-- A change that commutes with the veil depends on what is seen only. -/
theorem respects_of_commutes {f : Session → Session} (hf : ∀ s, (f s).veiled v = f (s.veiled v)) :
    Respects v f := by
  intro s s' h
  rw [hf, hf, h]

/-- The source is seen. -/
theorem source_eq (h : s.veiled v = s'.veiled v) : s.source = s'.source :=
  (congrArg source h :)

/-- Every signal is seen. -/
theorem signal_eq (h : s.veiled v = s'.veiled v) (channel : Channel) :
    s.signal channel = s'.signal channel := by
  rw [← signal_veiled (v := v) s, h, signal_veiled]

theorem respects_write (records : List LogRecord) : Respects v (·.write records) :=
  fun _ _ h => h

theorem respects_note (e : Event) : Respects v (·.note e) := by
  intro s s' h
  rw [veiled_note, veiled_note, h]

theorem respects_markStale (c : TableId) : Respects v (·.markStale c) :=
  respects_of_commutes fun _ => veiled_modifyTable fun _ => rfl

theorem respects_rebuild (c : TableId) (properties : List String) (expandAll : Bool) :
    Respects v (rebuild c properties expandAll) := by
  intro s s' h
  rw [veiled_rebuild, veiled_rebuild, h, source_eq h]

theorem respects_rearrange (c : TableId) (f : Arrangement → Arrangement) :
    Respects v (rearrange c f) := by
  intro s s' h
  rw [veiled_rearrange, veiled_rearrange, h]

theorem respects_look (c : TableId) : Respects v (look c) := by
  intro s s' h
  rw [veiled_look, veiled_look, h]

theorem respects_enter (c : TableId) : Respects v (enter c) :=
  respects_of_commutes fun _ => veiled_modifyEntry fun _ => rfl

/-- A change of an entry and then a release commute with the veil if the change does. -/
theorem veiled_retire (s : Session) {f : TableEntry → TableEntry}
    (hf : ∀ e, v.entry c (f e) = f (v.entry c e)) :
    (release c (s.modifyEntry c f)).veiled v = release c ((s.veiled v).modifyEntry c f) := by
  rw [veiled_release, veiled_modifyEntry hf]

theorem respects_leave (c : TableId) : Respects v (leave c) :=
  respects_of_commutes fun s => veiled_retire s fun _ => rfl

theorem respects_closeTable (c : TableId) : Respects v (closeTable c) := by
  refine respects_of_commutes fun s => ?_
  unfold closeTable
  rw [isOpen_veiled]
  split
  · exact veiled_retire s fun _ => rfl
  · rfl

theorem respects_disconnect (channel : Channel) (name : String) :
    Respects v fun s => (s.disconnect channel (s.names.get? name)).2 :=
  respects_of_commutes fun s => veiled_disconnect s channel _

theorem respects_block (channel : Channel) (on : Bool) : Respects v (block channel on) := by
  refine respects_of_commutes fun s => ?_
  unfold block
  rw [signal_veiled]
  exact veiled_setSignal s channel _

theorem respects_connect (channel : Channel) (r : Receiver) :
    Respects v fun s => (s.connect channel r).2 :=
  respects_of_commutes fun s => veiled_connect s channel r

/-- Who connects gets an identifier that depends on what is seen only. -/
theorem fst_connect_eq (h : s.veiled v = s'.veiled v) (channel : Channel) (r : Receiver) :
    (s.connect channel r).1 = (s'.connect channel r).1 := by
  rw [← fst_connect_veiled (v := v) s, h, fst_connect_veiled]

theorem length_tables_eq (h : s.veiled v = s'.veiled v) : s.tables.length = s'.tables.length := by
  rw [← length_tables_veiled (v := v) s, h, length_tables_veiled]

theorem length_listeners_eq (h : s.veiled v = s'.veiled v) :
    s.listeners.length = s'.listeners.length := by
  rw [← length_listeners_veiled (v := v) s, h, length_listeners_veiled]

theorem respects_openTable (settings : Settings) : Respects v (openTable settings) := by
  intro s s' h
  rw [veiled_openTable, veiled_openTable, h, source_eq h, length_tables_eq h]

theorem respects_listen (name : String) (channel : Channel) (script : List Step) (times : Nat) :
    Respects v (listen name channel script times) := by
  intro s s' h
  let connected (s : Session) := s.connect channel (.listener s.listeners.length)
  have hlength := length_listeners_eq h
  have hconnected : (connected s).2.veiled v = (connected s').2.veiled v := by
    simp only [connected, hlength]
    exact respects_connect _ _ s s' h
  have hid : (connected s).1 = (connected s').1 := by
    simp only [connected, hlength]
    exact fst_connect_eq h _ _
  have hlisten : ∀ s : Session, (s.listen name channel script times).veiled v =
      { (connected s).2.veiled v with
        listeners := ((connected s).2.veiled v).listeners ++ [v.listener ⟨name, script, times⟩]
        names := ((connected s).2.veiled v).names.insert name (connected s).1 } := fun s => by
    simp only [veiled, listen, connected, List.map_append, List.map_cons, List.map_nil]
  rw [hlisten, hlisten, hconnected, hid]

theorem respects_setListener (number : Nat) (l : Listener) :
    Respects v fun s => { s with listeners := s.listeners.set number l } := by
  have hset : ∀ s : Session, ({ s with listeners := s.listeners.set number l } : Session).veiled v =
      { s.veiled v with listeners := (s.veiled v).listeners.set number (v.listener l) } := by
    intro s
    simp only [veiled, List.map_set]
  intro s s' h
  rw [hset, hset, h]

/-! ## Calls -/

/-- What the call answers, and what is seen of what it changes, depends on what is seen only. -/
def Oblivious (v : Veil) (emit : Emit) (m : Call α) : Prop :=
  ∀ s s' : Session, s.veiled v = s'.veiled v →
    (m.run emit s).1 = (m.run emit s').1 ∧ (m.run emit s).2.veiled v = (m.run emit s').2.veiled v

theorem oblivious_pure (answer : α) : Oblivious v emit (pure answer : Call α) :=
  fun _ _ h => ⟨rfl, h⟩

theorem Oblivious.bind {m : Call α} {f : α → Call β} (h : Oblivious v emit m)
    (hf : ∀ answer, Oblivious v emit (f answer)) : Oblivious v emit (m >>= f) := by
  intro s s' hs
  obtain ⟨hanswer, hs⟩ := h s s' hs
  rw [run_bind, run_bind, hanswer]
  exact hf _ _ _ hs

theorem Oblivious.map {m : Call α} (h : Oblivious v emit m) (f : α → β) :
    Oblivious v emit (do return f (← m)) :=
  h.bind fun answer => oblivious_pure (f answer)

theorem oblivious_change {f : Session → Session} (h : Respects v f) :
    Oblivious v emit (change f) :=
  fun s s' hs => ⟨rfl, h s s' hs⟩

/-- A notice whose delivery depends on what is seen only may be sent. -/
theorem oblivious_send {n : Notice} (h : Respects v (emit n)) : Oblivious v emit (send n) :=
  fun s s' hs => ⟨rfl, h s s' hs⟩

/-- What to do next is decided by what is seen. -/
theorem oblivious_read {f : Session → Call β} (hf : ∀ s, f (s.veiled v) = f s)
    (h : ∀ s, Oblivious v emit (f s)) : Oblivious v emit (read >>= f) := by
  intro s s' hs
  rw [run_bind, run_bind, run_read, run_read, ← hf s', ← hs, hf]
  exact h s s s' hs

/-- Calls on tables are made of calls that depend on what is seen only. -/
theorem composed_oblivious (hemit : ∀ n, Respects v (emit n)) :
    Composed fun {_} m => ∀ c, Oblivious v emit (m c) where
  pure answer _ := oblivious_pure answer
  bind hm hf c := (hm c).bind fun answer => hf answer c
  ask hg c := oblivious_read (fun s => congrArg pure (hg c c s _ rfl rfl (sight_veiled s c)))
    fun _ => oblivious_pure _
  look c := oblivious_change (respects_look c)
  write records _ := oblivious_change (respects_write records)
  rebuild properties expandAll c := oblivious_change (respects_rebuild c properties expandAll)
  rearrange f c := oblivious_change (respects_rearrange c f)
  grouped _ _ := oblivious_send (hemit _)
  expanded _ _ := oblivious_send (hemit _)
  collapsed _ _ := oblivious_send (hemit _)
  layout _ := oblivious_send (hemit _)

/-- So are calls on the source. -/
theorem sourcing_oblivious (hemit : ∀ n, Respects v (emit n)) :
    Sourcing fun {_} m => Oblivious v emit m where
  pure := oblivious_pure
  bind := Oblivious.bind
  read hf := oblivious_read fun s => hf s _ rfl rfl
  setStore _ := oblivious_change (respects_of_commutes fun _ => rfl)
  setBinding _ := oblivious_change (respects_of_commutes fun _ => rfl)
  write records := oblivious_change (respects_write records)
  send n _ := oblivious_send (hemit n)

/-- A call on a table depends on what is seen only, with its beginning and end. -/
theorem oblivious_calling (c : TableId) {call : Call Answer} (h : Oblivious v emit call) :
    Oblivious v emit (calling c call) := by
  refine oblivious_read (fun s => ?_) fun s => ?_
  · rw [isOpen_veiled]
  · split
    · exact (oblivious_change (respects_enter c)).bind fun _ => h.bind fun _ =>
        (oblivious_change (respects_leave c)).bind fun _ => oblivious_pure _
    · exact oblivious_pure _

theorem oblivious_onChannel (channel : Channel) {use : Call Answer} (h : Oblivious v emit use) :
    Oblivious v emit (onChannel channel use) := by
  refine oblivious_read (fun s => ?_) fun s => ?_
  · rw [hasChannel_veiled]
  · split
    · exact h
    · exact oblivious_pure _

theorem oblivious_unlisten (name : String) (channel : Channel) :
    Oblivious v emit (unlisten name channel) := by
  refine oblivious_read (fun s => ?_) fun s =>
    (oblivious_change (respects_disconnect channel name)).bind fun _ => oblivious_pure _
  rw [fst_disconnect_veiled]
  rfl

theorem oblivious_hold (hemit : ∀ n, Respects v (emit n)) (c : TableId) (name : String) :
    Oblivious v emit (hold c name) :=
  ((composed_oblivious hemit).working.visible c).bind fun snapshot =>
    (oblivious_change (f := fun s => { s with held := s.held.insert name snapshot })
      (respects_of_commutes fun _ => rfl)).bind fun _ => oblivious_pure _

/-- The settings are read where they are seen. -/
theorem oblivious_settings (h : v.settings ≠ some c) :
    Oblivious v emit (askTable c .settings) := by
  have hsettings : ∀ t, (v.table c t).settings = t.settings := fun t => if_neg h
  refine oblivious_read (fun s => ?_) fun _ => oblivious_pure _
  simp only [table?_veiled, Option.map_map, Function.comp_def, hsettings]

/-! ## Steps -/

/-- A step of which the answer is seen. -/
theorem oblivious_runStep (hemit : ∀ n, Respects v (emit n)) {step : Step}
    (hseen : v.sees step = true) : Oblivious v emit (runStep step) := by
  cases step with
  | source step => exact (sourcing_oblivious hemit).runSource step
  | askSource query => exact oblivious_read (fun _ => rfl) fun _ => oblivious_pure _
  | openTable recipe =>
    simp only [runStep]
    split
    · exact oblivious_pure _
    · refine oblivious_read (fun s => ?_) fun s =>
        (oblivious_change (respects_openTable _)).bind fun _ => oblivious_pure _
      rw [length_tables_veiled]
  | closeTable c =>
    refine oblivious_read (fun s => ?_) fun s =>
      (oblivious_change (respects_closeTable c)).bind fun _ => oblivious_pure _
    rw [isOpen_veiled]
  | table c step => exact oblivious_calling c ((composed_oblivious hemit).working.runTable step c)
  | askTable c query =>
    refine oblivious_calling c ?_
    cases query with
    | settings => exact oblivious_settings (of_decide_eq_true hseen)
    | _ => exact (composed_oblivious hemit).working.askTable_of_ne TableQuery.noConfusion c
  | block channel on =>
    refine oblivious_onChannel channel ((oblivious_change (respects_block channel on)).bind fun _ =>
      oblivious_read (fun s => ?_) fun _ => oblivious_pure _)
    rw [signal_veiled]
  | connections channel =>
    refine oblivious_onChannel channel (oblivious_read (fun s => ?_) fun _ => oblivious_pure _)
    rw [signal_veiled]
  | listen name channel script times =>
    exact oblivious_onChannel channel
      ((oblivious_change (respects_listen name channel script times)).bind fun _ =>
        oblivious_pure _)
  | unlisten name channel =>
    exact oblivious_onChannel channel ((oblivious_unlisten name channel).map _)
  | hold c name => exact oblivious_calling c ((oblivious_hold hemit c name).map _)
  | held name => exact oblivious_read (fun _ => rfl) fun _ => oblivious_pure _

/-- The question for settings changes no more than a call that only answers. The veil may hide the
settings, so the answer itself is no guide here. -/
theorem respects_askSettings (c : TableId) :
    Respects v fun s => ((runStep (.askTable c .settings)).run emit s).2 := by
  have hidle : ∀ s, ((runStep (.askTable c .settings)).run emit s).2 =
      ((calling c (pure .done)).run emit s).2 := by
    intro s
    cases hopen : s.isOpen c with
    | true => simp only [runStep, calling, askTable, run_bind, run_read, hopen, if_true, run_pure]
    | false =>
      simp only [runStep, calling, run_bind, run_read, hopen, Bool.false_eq_true, if_false]
  have hcalling : Oblivious v emit (calling c (pure .done)) :=
    oblivious_calling c (oblivious_pure _)
  intro s s' h
  dsimp only
  rw [hidle, hidle]
  exact (hcalling s s' h).2

/-- Whether its answer is seen or not, what is seen of a step's changes depends on what is seen
only. -/
theorem respects_runStep (hemit : ∀ n, Respects v (emit n)) (step : Step) :
    Respects v fun s => ((runStep step).run emit s).2 := by
  cases hseen : v.sees step with
  | true => exact fun s s' h => (oblivious_runStep hemit hseen s s' h).2
  | false =>
    unfold Veil.sees at hseen
    split at hseen
    · exact respects_askSettings _
    · exact absurd hseen.symm Bool.false_ne_true

/-! ## Emissions -/

/-- Each step of a script is noted with its answer, unless that is not seen. -/
theorem respects_play (hemit : ∀ n, Respects v (emit n)) (name : String) (script : List Step) :
    Respects v (play emit name script) := by
  induction script with
  | nil => exact fun _ _ h => h
  | cons step rest ih =>
    have hplay : ∀ s, play emit name (step :: rest) s = play emit name rest
        (((runStep step).run emit s).2.note (.acted name step ((runStep step).run emit s).1)) :=
      fun _ => rfl
    intro s s' h
    have hleft := respects_runStep hemit step s s' h
    rw [hplay, hplay]
    refine ih _ _ ?_
    cases hseen : v.sees step with
    | true =>
      rw [(oblivious_runStep hemit hseen s s' h).1]
      exact respects_note _ _ _ hleft
    | false =>
      rw [veiled_note, veiled_note, hleft]
      simp only [List.filter_cons, Veil.notes, hseen, Bool.false_eq_true, if_false, List.filter_nil]

/-- What a listener without a script does when it is called is not seen if calls are not. -/
theorem veiled_act_of_idle (hcalls : v.calls = true) {number : Nat} {l : Listener}
    (hl : s.listeners[number]? = some l) (hscript : l.script = []) (n : Notice) :
    (act emit number n s).veiled v = s.veiled v := by
  obtain ⟨name, script, left⟩ := l
  obtain rfl : script = [] := hscript
  have hlisteners : (s.listeners.set number ⟨name, [], left - 1⟩).map v.listener =
      s.listeners.map v.listener := by
    have hsame : v.listener ⟨name, [], left - 1⟩ = v.listener ⟨name, [], left⟩ := by
      simp only [Veil.listener, hcalls, List.isEmpty_nil, Bool.and_self, if_true]
    refine List.ext_getElem? fun other => ?_
    rw [List.map_set, hsame, List.getElem?_set, List.length_map]
    split
    · rename_i heq
      subst heq
      rw [if_pos (List.getElem?_eq_some_iff.1 hl).1, List.getElem?_map, hl]
      rfl
    · rfl
  simp only [act, hl]
  split
  · rfl
  · change (Session.note _ _).veiled v = _
    rw [veiled_note]
    simp only [List.filter_cons, Veil.notes, hcalls, Bool.not_true, Bool.false_eq_true, if_false,
      List.filter_nil, List.append_nil]
    exact congrArg (fun listeners => { s.veiled v with listeners }) hlisteners

/-- What a listener does depends on what is seen only. -/
theorem respects_act (hemit : ∀ n, Respects v (emit n)) (number : Nat) (n : Notice) :
    Respects v (act emit number n) := by
  intro s s' h
  have hlistener : s.listeners[number]?.map v.listener = s'.listeners[number]?.map v.listener := by
    have hlisteners : s.listeners.map v.listener = s'.listeners.map v.listener :=
      (congrArg listeners h :)
    rw [← List.getElem?_map, hlisteners, List.getElem?_map]
  cases hl : s.listeners[number]? with
  | none =>
    have hl' : s'.listeners[number]? = none := by simpa [hl] using hlistener.symm
    simp only [act, hl, hl', h]
  | some l =>
    rw [hl] at hlistener
    obtain ⟨l', hl', heq⟩ := Option.map_eq_some_iff.1 hlistener.symm
    have hscript : l'.script = l.script := (congrArg Listener.script heq :)
    by_cases hidle : v.calls = true ∧ l.script = []
    · rw [veiled_act_of_idle hidle.1 hl hidle.2,
        veiled_act_of_idle hidle.1 hl' (hscript.trans hidle.2), h]
    · have hkept : ∀ l : Listener, ¬(v.calls = true ∧ l.script = []) → v.listener l = l := by
        intro l hl
        simp only [Veil.listener, Bool.and_eq_true, List.isEmpty_iff, hl, if_false]
      rw [hkept l hidle, hkept l' (hscript ▸ hidle)] at heq
      subst heq
      simp only [act, hl, hl']
      split
      · exact h
      · exact respects_play hemit _ _ _ _
          (respects_note _ _ _ (respects_setListener number _ s s' h))

/-- An emission depends on what is seen only, if what listeners do does. -/
theorem respects_emitWith {act : Nat → Emit} {n : Notice}
    (hact : ∀ number, Respects v (act number n)) : Respects v (emitWith act n) := by
  have hcall : ∀ r, Respects v (call act n r) := by
    intro r
    cases r with
    | journal => exact respects_note (.noted n)
    | table c => exact respects_markStale c
    | listener number => exact hact number
  have hfold : ∀ receivers : List Receiver,
      Respects v fun s => receivers.foldl (fun s r => call act n r s) s := by
    intro receivers
    induction receivers with
    | nil => exact fun _ _ h => h
    | cons r rest ih => exact fun s s' h => ih _ _ (hcall r s s' h)
  intro s s' h
  unfold emitWith Signal.deliver
  rw [signal_eq h]
  exact hfold _ (s.beginEmission n) (s'.beginEmission n) h

/-- Emissions depend on nothing that is not seen, however deep scripts are played. -/
theorem respects_emit (depth : Nat) (n : Notice) : Respects v (Session.emit depth n) := by
  induction depth generalizing n with
  | zero => exact respects_emitWith fun _ _ _ h => h
  | succ depth ih => exact respects_emitWith fun number => respects_act ih number n

/-! ## Runs -/

/-- A step of a run answers and changes what is seen by what is seen only. -/
theorem runTop_veiled (h : s.veiled v = s'.veiled v) (depth : Nat) (step : Step) :
    v.result step (runTop depth step s).1 = v.result step (runTop depth step s').1 ∧
      (runTop depth step s).2.veiled v = (runTop depth step s').2.veiled v := by
  have hleft := respects_runStep (respects_emit depth) step s s' h
  have hjournal := congrArg journal hleft
  refine ⟨Prod.ext ?_ hjournal, congrArg (fun s => { s with journal := [] }) hleft⟩
  cases hseen : v.sees step with
  | true =>
    have hanswer := (oblivious_runStep (respects_emit depth) hseen s s' h).1
    simp only [Veil.result, runTop, hanswer]
  | false => simp only [Veil.result, hseen, Bool.false_eq_true, if_false]

/-- No run of steps shows a difference between the sessions. -/
def Indistinct (v : Veil) (s s' : Session) : Prop :=
  ∀ depth steps,
    v.results steps (runAll depth steps s).1 = v.results steps (runAll depth steps s').1

/-- Sessions that are the same as far as they are seen cannot be told apart. -/
theorem indistinct_of_veiled (h : s.veiled v = s'.veiled v) : Indistinct v s s' := by
  intro depth steps
  induction steps generalizing s s' with
  | nil => rfl
  | cons step rest ih =>
    obtain ⟨hresult, hleft⟩ := runTop_veiled h depth step
    exact List.cons_eq_cons.2 ⟨hresult, ih hleft⟩

end Session

end GroupedRows
