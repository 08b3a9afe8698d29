import GroupedRows.Proofs.Session.Delivery
import GroupedRows.Proofs.Session.StepAlterations

/-!
# Scripts are moves

Where listeners play scripts, every step at the top and every step of a script is a whole
call of code outside. So what a session comes to is a moment that moves lead to. What
steps are made of decides which calls these are.
-/

namespace GroupedRows.Moment

open Session

/-- Code outside may make any step. -/
def AnyStep (_ : Session) (_ : Step) : Prop := True

/-- Steps of a kind may be made in any session, and scripts that they connect are of the kind. -/
structure Playable (allowed : Session → Step → Prop) (ok : Step → Prop) : Prop where
  allowed : ∀ s step, ok step → allowed s step
  script : ∀ name channel script times, ok (.listen name channel script times) →
    ∀ step ∈ script, ok step

/-- All listeners of the session play scripts of a kind. -/
def Scripted (ok : Step → Prop) (s : Session) : Prop :=
  ∀ l ∈ s.listeners, ∀ step ∈ l.script, ok step

variable {allowed : Session → Step → Prop} {ok : Step → Prop} {s s' : Session}

/-- Which scripts are played depends on the listeners alone. -/
theorem Scripted.of_listeners (h : Scripted ok s) (hl : s'.listeners = s.listeners) :
    Scripted ok s' := by
  unfold Scripted
  rwa [hl]

/-! ## Listeners after a step -/

@[simp] theorem listeners_setSignal (s : Session) (channel : Channel) (signal : Signal Receiver) :
    (s.setSignal channel signal).listeners = s.listeners := by
  cases channel <;> rfl

@[simp] theorem listeners_disconnect (s : Session) (channel : Channel) (id : Option SlotId) :
    (s.disconnect channel id).2.listeners = s.listeners :=
  listeners_setSignal s channel _

@[simp] theorem listeners_release (s : Session) (c : TableId) :
    (s.release c).listeners = s.listeners := by
  unfold release
  split
  · split
    · rfl
    · simp
  · rfl

/-- Only connecting a listener adds a script, and that is the script of its step. -/
theorem listeners_alters (hs : Alters allowed s s') :
    s'.listeners = s.listeners ∨ ∃ name channel script times,
      allowed s (.listen name channel script times) ∧
        s'.listeners = s.listeners ++ [⟨name, script, times⟩] := by
  cases hs with
  | listen name channel script times hallowed =>
    exact .inr ⟨name, channel, script, times, hallowed,
      congrArg (· ++ [_]) (listeners_setSignal s channel _)⟩
  | rebuild c properties expandAll =>
    refine .inl ?_
    unfold rebuild
    split <;> rfl
  | release c => exact .inl (listeners_release s c)
  | block channel on => exact .inl (listeners_setSignal s channel _)
  | unlisten name channel => exact .inl (listeners_disconnect s channel _)
  | write | hold | bind | arrange | openTable | close | enter | finish | load => exact .inl rfl

/-- Alterations connect only listeners whose scripts are of the kind. -/
theorem Scripted.alters (hp : Playable allowed ok) (h : Scripted ok s)
    (hs : Alters (fun _ => ok) s s') : Scripted ok s' := by
  rcases listeners_alters hs with hl | ⟨name, channel, script, times, hok, hl⟩
  · exact h.of_listeners hl
  · intro l hmem step hstep
    rw [hl, List.mem_append, List.mem_singleton] at hmem
    rcases hmem with hmem | rfl
    · exact h l hmem step hstep
    · exact hp.script name channel script times hok step hstep

/-- A step of the kind leaves only scripts of the kind. -/
theorem Scripted.step (hp : Playable allowed ok) (h : Scripted ok s) {step : Step}
    (hok : ok step) :
    ((runStep step).start s).Keeps (fun _ => Scripted ok) (Scripted ok) :=
  (follows_runStep hok).keeps h (fun _ _ h hs => h.alters hp hs) (fun _ _ h => h)
    (fun _ _ _ h _ => h)

/-! ## Sending -/

/-- Sending notices by `emit` is one way to deliver them, and leaves scripts of the kind. -/
def Realizes (emit : Emit) (ok : Step → Prop) (d : Delivery) : Prop :=
  ∀ n s, Scripted ok s → Scripted ok (emit n s) ∧ ∃ ns, d n s ns (emit n s)

variable {emit : Emit} {d : Delivery}

/-- A course ends where sending leads it. -/
theorem Realizes.finish (h : Realizes emit ok d) {α : Type} {c : Course α}
    (hc : c.Keeps (fun _ => Scripted ok) (Scripted ok)) :
    Scripted ok (c.finish emit).2 ∧ ∃ ns, c.Ends d ns (c.finish emit).1 (c.finish emit).2 := by
  induction c with
  | ended answer s => exact ⟨hc, [], .ended answer s⟩
  | sends n s rest ih =>
    obtain ⟨hs, ns, hd⟩ := h n s hc.1
    obtain ⟨hend, ms, hrest⟩ := ih (emit n s) (hc.2 _ hs)
    exact ⟨hend, _, .sends hd hrest⟩

/-- A step of the kind is a whole call. -/
theorem Realizes.step (hp : Playable allowed ok) (h : Realizes emit ok d) (hs : Scripted ok s)
    {step : Step} (hok : ok step) :
    Scripted ok ((runStep step).run emit s).2 ∧
      ∃ ns, Call.Ends d (runStep step) s ns ((runStep step).run emit s).1
        ((runStep step).run emit s).2 :=
  h.finish (hs.step hp hok)

/-- To play a script of the kind is to act. -/
theorem Realizes.play (hp : Playable allowed ok) (h : Realizes emit ok d) (name : String)
    {script : List Step} (hscript : ∀ step ∈ script, ok step) (hs : Scripted ok s) :
    Scripted ok (play emit name script s) ∧
      ∃ ns, Acts allowed d s ns (play emit name script s) := by
  induction script generalizing s with
  | nil => exact ⟨hs, [], .rest s⟩
  | cons step rest ih =>
    have hok := hscript step List.mem_cons_self
    obtain ⟨hend, ns, hstep⟩ := h.step hp hs hok
    have hnoted : Scripted ok (((runStep step).run emit s).2.note
      (.acted name step ((runStep step).run emit s).1)) := hend
    obtain ⟨hall, ms, hrest⟩ :=
      ih (fun step hm => hscript step (List.mem_cons_of_mem _ hm)) hnoted
    have hcall := Acts.call (.rest s) (hp.allowed s step hok) hstep
    exact ⟨hall, _, (Acts.note _ _ _ _ hcall).trans hrest⟩

/-- A listener that plays its script acts. -/
theorem Realizes.act (hp : Playable allowed ok) (h : Realizes emit ok d) (number : Nat) (n : Notice)
    (hs : Scripted ok s) :
    Scripted ok (act emit number n s) ∧ ∃ ns, Acts allowed d s ns (act emit number n s) := by
  unfold Session.act
  split
  · exact ⟨hs, [], .rest s⟩
  · rename_i l hl
    split
    · exact ⟨hs, [], .rest s⟩
    · have hscript := hs l (List.mem_of_getElem? hl)
      have hcounted : Scripted ok
          ({ s with listeners := s.listeners.set number { l with left := l.left - 1 } }.note
            (.heard l.name n)) := by
        intro l' hl'
        rcases List.mem_or_eq_of_mem_set hl' with hl' | rfl
        · exact hs l' hl'
        · exact hscript
      obtain ⟨hend, ns, hplay⟩ := h.play hp l.name hscript hcounted
      exact ⟨hend, _, (Acts.note _ _ _ _ (.rest s)).trans hplay⟩

/-- If listeners act in a certain way, then sending is to deliver while they do. -/
theorem realizes_emitWith {act : Nat → Emit} {acts : Session → List Notice → Session → Prop}
    (h : ∀ number n {s : Session}, Scripted ok s →
      Scripted ok (act number n s) ∧ ∃ ns, acts s ns (act number n s)) :
    Realizes (emitWith act) ok (Delivers acts) := by
  have hreceivers : ∀ (n : Notice) (receivers : List Receiver) (s : Session), Scripted ok s →
      Scripted ok (receivers.foldl (fun s r => call act n r s) s) ∧
        ∃ ns, Called acts n receivers s ns (receivers.foldl (fun s r => call act n r s) s) := by
    intro n receivers
    induction receivers with
    | nil => exact fun s hs => ⟨hs, [], .nil s⟩
    | cons r pending ih =>
      intro s hs
      cases r with
      | journal =>
        obtain ⟨hend, ns, hrest⟩ := ih (s.receive n .journal) hs
        exact ⟨hend, ns, .cons rfl hrest⟩
      | table c =>
        obtain ⟨hend, ns, hrest⟩ := ih (s.receive n (.table c)) hs
        exact ⟨hend, ns, .cons rfl hrest⟩
      | listener number =>
        obtain ⟨hs', ns, hact⟩ := h number n hs
        obtain ⟨hend, ms, hrest⟩ := ih _ hs'
        exact ⟨hend, _, .listener number hact hrest⟩
  intro n s hs
  obtain ⟨hend, ns, hcalled⟩ := hreceivers n (s.signal n.channel).audience (s.beginEmission n) hs
  exact ⟨hend, _, ns, _, hcalled, rfl, rfl⟩

/-- To send where scripts are played at any depth is to deliver. -/
theorem realizes_emit (hp : Playable allowed ok) (depth : Nat) :
    Realizes (Session.emit depth) ok (delivery allowed depth) := by
  induction depth with
  | zero => exact realizes_emitWith fun _ _ _ hs => ⟨hs, [], rfl, rfl⟩
  | succ depth ih => exact realizes_emitWith fun number n _ hs => ih.act hp number n hs

/-! ## Runs -/

/-- To run steps of the kind is to act. -/
theorem acts_runAll (hp : Playable allowed ok) (depth : Nat) {steps : List Step}
    (hsteps : ∀ step ∈ steps, ok step) (hs : Scripted ok s) :
    Scripted ok (runAll depth steps s).2 ∧
      ∃ ns, Acts allowed (delivery allowed depth) s ns (runAll depth steps s).2 := by
  induction steps generalizing s with
  | nil => exact ⟨hs, [], .rest s⟩
  | cons step rest ih =>
    have hok := hsteps step List.mem_cons_self
    obtain ⟨hend, ns, hstep⟩ := (realizes_emit hp depth).step hp hs hok
    have hcleared : Scripted ok { ((runStep step).run (emit depth) s).2 with journal := [] } := hend
    obtain ⟨hall, ms, hrest⟩ := ih (fun step hm => hsteps step (List.mem_cons_of_mem _ hm)) hcleared
    have hcall := Acts.call (.rest s) (hp.allowed s step hok) hstep
    exact ⟨hall, _, (Acts.note _ _ _ _ hcall).trans hrest⟩

/-- What a session comes to by its steps is a moment without waiting calls. -/
theorem reaches_runAll (hp : Playable allowed ok) (depth : Nat) {steps : List Step}
    (hsteps : ∀ step ∈ steps, ok step) (hs : Scripted ok s) :
    Reaches allowed ⟨s, []⟩ ⟨(runAll depth steps s).2, []⟩ := by
  obtain ⟨-, ns, hacts⟩ := acts_runAll hp depth hsteps hs
  exact leads_delivery depth _ _ _ [] hacts isFree_nil

/-- A session without listeners may play any steps. -/
theorem reaches_runAll_ofStore (store : ItemStore) (log : List LogRecord) (depth : Nat)
    (steps : List Step) :
    Reaches AnyStep ⟨ofStore store log, []⟩ ⟨(runAll depth steps (ofStore store log)).2, []⟩ := by
  have hp : Playable AnyStep fun _ => True := ⟨fun _ _ _ => trivial, fun _ _ _ _ _ _ _ => trivial⟩
  exact reaches_runAll hp depth (fun _ _ => trivial) fun _ _ _ _ => trivial

end GroupedRows.Moment
