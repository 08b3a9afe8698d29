import Mathlib.Algebra.GroupWithZero.Nat
import GroupedRows.Proofs.Switchboard.Scenes

/-!
# Emissions of a switchboard

The emissions that run on a switchboard, with scripts that connect, disconnect, block and
emit while they are under way, are runs of scenes in which every emission works on a
snapshot. The depth to which scripts are played never runs out, since it is enough that
it is not below the plays that are left to all handlers together.
-/

namespace GroupedRows.Switchboard

open Signal

variable {b b' b'' : Switchboard}

/-! ## Plays -/

/-- How many plays of scripts are left to the handlers, with those that the plays bring about. -/
def plays (b : Switchboard) : Nat :=
  (b.handlers.map fun h => h.left * (1 + Step.playsOf h.script)).sum

/-- Replacing a signal leaves the plays as they are. -/
theorem plays_setSignal (b : Switchboard) (line : Line) (signal : Signal Nat) :
    (b.setSignal line signal).plays = b.plays := by
  cases line <;> rfl

/-- A step brings about no more plays than are counted for it, if emissions bring about none. -/
theorem plays_runStep_le {emit : Line → Int → Switchboard → Switchboard} {step : Step}
    (hemit : ∀ line value, step = .emit line value → (emit line value b).plays ≤ b.plays) :
    (runStep emit step b).2.plays ≤ b.plays + step.plays := by
  cases step with
  | connect line name script times =>
    have hhandlers : (connect line name script times b).handlers =
        b.handlers ++ [⟨name, script, times⟩] := by
      cases line <;> rfl
    change (connect line name script times b).plays ≤ _
    rw [plays, hhandlers, List.map_append, List.sum_append, Step.plays, plays]
    simp
  | disconnect line name => exact Nat.le_of_eq (plays_setSignal b line _)
  | disconnectAll line => exact Nat.le_of_eq (plays_setSignal b line _)
  | block line on => exact Nat.le_of_eq (plays_setSignal b line _)
  | count line => exact Nat.le_refl _
  | isBlocked line => exact Nat.le_refl _
  | emit line value => exact hemit line value rfl

/-- A play that is used up is one less, and so are the plays that it can bring about. -/
theorem plays_spend {n : Nat} {h : Handler} (hn : b.handlers[n]? = some h) (hleft : 0 < h.left) :
    ({ b with handlers := b.handlers.set n { h with left := h.left - 1 } } : Switchboard).plays +
      (1 + Step.playsOf h.script) = b.plays := by
  obtain ⟨hlt, rfl⟩ := List.getElem?_eq_some_iff.1 hn
  obtain ⟨front, back, hparts, hlength⟩ :
      ∃ front back, b.handlers = front ++ b.handlers[n] :: back ∧ front.length = n := by
    refine ⟨b.handlers.take n, b.handlers.drop (n + 1), ?_,
      List.length_take_of_le (Nat.le_of_lt hlt)⟩
    rw [← List.drop_eq_getElem_cons hlt, List.take_append_drop]
  generalize b.handlers[n] = h at hparts hleft ⊢
  obtain ⟨left, hsucc⟩ := Nat.exists_eq_succ_of_ne_zero (Nat.ne_of_gt hleft)
  have hset : b.handlers.set n { h with left := h.left - 1 } =
      front ++ { h with left := h.left - 1 } :: back := by
    rw [hparts, ← hlength, List.set_append_right _ _ (Nat.le_refl _), Nat.sub_self,
      List.set_cons_zero]
  unfold plays
  dsimp only
  rw [hset, hparts]
  simp only [List.map_append, List.map_cons, List.sum_append, List.sum_cons, hsucc,
    Nat.succ_eq_add_one, Nat.add_sub_cancel, Nat.add_mul, Nat.one_mul]
  omega

/-! ## Runs in which emissions work on snapshots -/

/-- From one switchboard to the next there is a run inside an emission, which starts with `pre` left
to play and ends with `post`. In it the emission makes the calls `own`, and every emission that
begins works on a snapshot. -/
structure Enacts (pre : List (String × Step)) (part : List (Happening Line Nat Int))
    (own : List (Nat × Int)) (post : List (String × Step)) (b b' : Switchboard) : Prop where
  runs : ∀ outer, Runs ⟨b, pre :: outer⟩ part ⟨b', post :: outer⟩
  amounts : Amounts part own
  onSnapshots : OnSnapshots b.signal part

namespace Enacts

variable {pre mid post : List (String × Step)} {part more : List (Happening Line Nat Int)}
  {own others : List (Nat × Int)}

/-- Where nothing happens, nothing is called. -/
theorem nil (pre : List (String × Step)) (b : Switchboard) : Enacts pre [] [] pre b b :=
  ⟨fun _ => .nil _, .nil, .nil _⟩

/-- A later run goes on with the signals that an earlier one leaves. -/
theorem trans (h : Enacts pre part own mid b b') (h' : Enacts mid more others post b' b'') :
    Enacts pre (part ++ more) (own ++ others) post b b'' where
  runs outer := (h.runs outer).append (h'.runs outer)
  amounts := h.amounts.append h'.amounts
  onSnapshots := by
    have hsignals : (fun line => (actionsOn line part).foldl perform (b.signal line)) =
        b'.signal := by
      ext1 line
      exact ((h.runs []).signal_eq line).symm
    apply h.onSnapshots.append
    rw [hsignals]
    exact h'.onSnapshots

/-- Around a run in which the audience is called there is an emission on a snapshot. -/
theorem onSnapshots_emission {line : Line} {value : Int} {body : List (Happening Line Nat Int)}
    (h : Enacts pre body ((b.signal line).audience.map (·, value)) post (b.announce line) b') :
    OnSnapshots b.signal (.begins line value :: (body ++ [.ends])) :=
  OnSnapshots.emission (signal_announce line b ▸ h.onSnapshots) line value h.amounts

/-- A single happening that begins no emission. -/
theorem single {h : Happening Line Nat Int}
    (hgoes : ∀ outer, Goes ⟨b, pre :: outer⟩ h ⟨b', post :: outer⟩) (hamounts : Amounts [h] own)
    (hbegins : ∀ line value, h ≠ .begins line value) : Enacts pre [h] own post b b' :=
  ⟨fun outer => .one (hgoes outer), hamounts, .single _ hbegins⟩

end Enacts

/-- An emission calls its audience, with all that this brings about, and then it is over. It costs
no more than `depth` plays. -/
def EmitsWithin (depth : Nat) (emit : Line → Int → Switchboard → Switchboard) : Prop :=
  ∀ line value (b : Switchboard), b.plays ≤ depth → ∃ body b',
    Enacts [] body ((b.signal line).audience.map (·, value)) [] (b.announce line) b' ∧
      emit line value b = b'.finish ∧ b'.plays ≤ b.plays

/-- A call is noted first, and then the handler's script is played if it has a play left. It costs
no more than `depth` plays. -/
def CallsWithin (depth : Nat) (call : Nat → Int → Switchboard → Switchboard) : Prop :=
  ∀ n value (b : Switchboard), b.plays ≤ depth → ∃ part,
    Enacts [] part [(n, value)] [] b (call n value b) ∧ (call n value b).plays ≤ b.plays

variable {emit : Line → Int → Switchboard → Switchboard} {depth : Nat}

/-! ## Steps of scripts -/

/-- A step that is no emission calls nobody. -/
theorem amounts_happening (b : Switchboard) {step : Step}
    (hstep : ∀ line value, step ≠ .emit line value) :
    Amounts [step.happening b] [] ∧ ∀ line value, step.happening b ≠ .begins line value := by
  cases step with
  | connect line name script times => exact ⟨.acts line _, by simp [Step.happening]⟩
  | disconnect line name => exact ⟨.acts line _, by simp [Step.happening]⟩
  | disconnectAll line => exact ⟨.acts line _, by simp [Step.happening]⟩
  | block line on => exact ⟨.acts line _, by simp [Step.happening]⟩
  | count line => exact ⟨.looks line, by simp [Step.happening]⟩
  | isBlocked line => exact ⟨.looks line, by simp [Step.happening]⟩
  | emit line value => exact absurd rfl (hstep line value)

/-- The next step of a script is made, an emission with all that happens until it is over, and the
answer is noted. -/
theorem enacts_step (hemit : EmitsWithin depth emit) (hb : b.plays ≤ depth) (name : String)
    (step : Step) (rest : List (String × Step)) :
    let b' := (runStep emit step b).2.note (.acted name step (runStep emit step b).1)
    (∃ part, Enacts ((name, step) :: rest) part [] rest b b') ∧
      b'.plays ≤ b.plays + step.plays := by
  intro b'
  by_cases hstep : ∃ line value, step = .emit line value
  · obtain ⟨line, value, rfl⟩ := hstep
    obtain ⟨body, c, hbody, hc, hplays⟩ := hemit line value b hb
    have hb' : b' = c.finish.note (.acted name (.emit line value) .done) := by
      rw [← hc]
      rfl
    rw [hb']
    refine ⟨⟨.begins line value :: (body ++ [.ends]), fun outer => ?_,
      hbody.amounts.emission line value, hbody.onSnapshots_emission⟩, ?_⟩
    · have hbegins := Goes.begins b name line value rest outer
      have hreturns := Goes.returns c name (.emit line value) rest outer
      exact .cons hbegins ((hbody.runs _).append (.one hreturns))
    · exact Nat.le_trans hplays (Nat.le_add_right _ _)
  · have hno : ∀ line value, step ≠ .emit line value := by
      intro line value he
      exact hstep ⟨line, value, he⟩
    obtain ⟨hamounts, hbegins⟩ := amounts_happening b hno
    refine ⟨⟨_, .single (Goes.steps emit b name step rest · hno) hamounts hbegins⟩, ?_⟩
    exact plays_runStep_le fun line value he => absurd he (hno line value)

/-- The steps of a script are made one after the other. -/
theorem enacts_play (hemit : EmitsWithin depth emit) (name : String) {script : List Step}
    (hb : b.plays + Step.playsOf script ≤ depth) :
    (∃ part, Enacts (script.map (name, ·)) part [] [] b (play emit name script b)) ∧
      (play emit name script b).plays ≤ b.plays + Step.playsOf script := by
  induction script generalizing b with
  | nil => exact ⟨⟨[], .nil [] b⟩, Nat.le_add_right _ _⟩
  | cons step rest ih =>
    have hcount : Step.playsOf (step :: rest) = step.plays + Step.playsOf rest := rfl
    rw [hcount] at hb ⊢
    obtain ⟨⟨first, hfirst⟩, hplays⟩ :=
      enacts_step (b := b) hemit (by omega) name step (rest.map (name, ·))
    have hplay : play emit name (step :: rest) b = play emit name rest
        ((runStep emit step b).2.note (.acted name step (runStep emit step b).1)) := rfl
    rw [hplay]
    generalize (runStep emit step b).2.note _ = b' at hfirst hplays ⊢
    obtain ⟨⟨more, hmore⟩, hlater⟩ := ih (b := b') (by omega)
    exact ⟨⟨first ++ more, hfirst.trans hmore⟩, by omega⟩

/-! ## Calls -/

/-- A handler that does not exist does nothing, and one without a script or a play left only notes
its calls. -/
theorem enacts_silent_call {n : Nat}
    (hsilent : ∀ h, b.handlers[n]? = some h → h.script = [] ∨ h.left = 0) (value : Int) :
    Enacts [] [.calls n value] [(n, value)] [] b (noteOnly n value b) ∧
      (noteOnly n value b).plays = b.plays := by
  unfold noteOnly
  cases hn : b.handlers[n]? with
  | none => exact ⟨.single (.misses b n value · hn) (.calls n value) (by simp), rfl⟩
  | some h =>
    have hhears := fun outer => Goes.hears b n value h outer hn (hsilent h hn)
    exact ⟨.single hhears (.calls n value) (by simp), rfl⟩

/-- Where no play is left, calls are only noted. -/
theorem callsWithin_noteOnly : CallsWithin 0 noteOnly := by
  intro n value b hb
  have hsilent : ∀ h, b.handlers[n]? = some h → h.script = [] ∨ h.left = 0 := by
    intro h hn
    right
    by_contra hleft
    have hspend := plays_spend hn (Nat.pos_of_ne_zero hleft)
    omega
  obtain ⟨henacts, hplays⟩ := enacts_silent_call hsilent value
  exact ⟨_, henacts, Nat.le_of_eq hplays⟩

/-- A play of a script costs one play more than the emissions inside it. -/
theorem callsWithin_call (hemit : EmitsWithin depth emit) :
    CallsWithin (depth + 1) (call emit) := by
  intro n value b hb
  by_cases hsilent : ∀ h, b.handlers[n]? = some h → h.script = [] ∨ h.left = 0
  · have hcall : call emit n value b = noteOnly n value b := by
      unfold call noteOnly
      cases hn : b.handlers[n]? with
      | none => rfl
      | some h => simp [hsilent h hn]
    obtain ⟨henacts, hplays⟩ := enacts_silent_call hsilent value
    rw [hcall]
    exact ⟨_, henacts, Nat.le_of_eq hplays⟩
  · push Not at hsilent
    obtain ⟨h, hn, hscript, hleft⟩ := hsilent
    have hpos : 0 < h.left := Nat.pos_of_ne_zero hleft
    generalize hspent : ({ b.note (.received h.name value) with
      handlers := b.handlers.set n { h with left := h.left - 1 } } : Switchboard) = spent
    have hcall : call emit n value b = play emit h.name h.script spent := by
      unfold call
      rw [hn, ← hspent]
      simp [hscript, hleft, note]
    have hplays : spent.plays + (1 + Step.playsOf h.script) = b.plays := by
      rw [← hspent]
      exact plays_spend (b := b.note (.received h.name value)) hn hpos
    have hgoes : Enacts [] [.calls n value] [(n, value)] (h.script.map (h.name, ·)) b spent := by
      rw [← hspent]
      exact .single (Goes.plays b n value h · hn hscript hpos) (.calls n value) (by simp)
    have hbound : spent.plays + Step.playsOf h.script ≤ depth := by omega
    obtain ⟨⟨part, hplay⟩, hlater⟩ := enacts_play hemit h.name hbound
    rw [hcall]
    exact ⟨_, hgoes.trans hplay, by omega⟩

/-! ## Emissions -/

/-- One receiver after the other is called, whatever this brings about. -/
theorem enacts_receivers {call : Nat → Int → Switchboard → Switchboard}
    (hcall : CallsWithin depth call) (value : Int) (receivers : List Nat) (hb : b.plays ≤ depth) :
    let b' := receivers.foldl (fun b n => call n value b) b
    (∃ body, Enacts [] body (receivers.map (·, value)) [] b b') ∧ b'.plays ≤ b.plays := by
  induction receivers generalizing b with
  | nil => exact ⟨⟨[], .nil [] b⟩, Nat.le_refl _⟩
  | cons n rest ih =>
    obtain ⟨first, hfirst, hplays⟩ := hcall n value b hb
    obtain ⟨⟨body, hbody⟩, hlater⟩ := ih (Nat.le_trans hplays hb)
    exact ⟨⟨first ++ body, hfirst.trans hbody⟩, Nat.le_trans hlater hplays⟩

/-- An emission calls those who are connected when it begins, one after the other, and ends. -/
theorem emitWith_eq (call : Nat → Int → Switchboard → Switchboard) (line : Line) (value : Int)
    (b : Switchboard) :
    emitWith call line value b =
      ((b.signal line).audience.foldl (fun b n => call n value b) (b.announce line)).finish := rfl

/-- Emissions keep to the depth to which the calls keep. -/
theorem emitsWithin_emitWith {call : Nat → Int → Switchboard → Switchboard}
    (hcall : CallsWithin depth call) : EmitsWithin depth (emitWith call) := by
  intro line value b hb
  have hstart : (b.announce line).plays ≤ depth := hb
  obtain ⟨⟨body, hbody⟩, hplays⟩ := enacts_receivers hcall value (b.signal line).audience hstart
  exact ⟨body, _, hbody, emitWith_eq call line value b, hplays⟩

/-- If scripts are played to a depth, then emissions are complete where no more plays are left. -/
theorem emitsWithin_emit (depth : Nat) : EmitsWithin depth (Switchboard.emit depth) := by
  induction depth with
  | zero => exact emitsWithin_emitWith callsWithin_noteOnly
  | succ depth ih => exact emitsWithin_emitWith (callsWithin_call ih)

/-- After some steps no more plays are left than are counted for these. -/
theorem plays_runAll_le {depth : Nat} (steps : List Step)
    (hb : b.plays + Step.playsOf steps ≤ depth) :
    (runAll depth steps b).2.plays ≤ b.plays + Step.playsOf steps := by
  induction steps generalizing b with
  | nil => exact Nat.le_add_right _ _
  | cons step rest ih =>
    have hcount : Step.playsOf (step :: rest) = step.plays + Step.playsOf rest := rfl
    rw [hcount] at hb ⊢
    have hfirst : (runStep (Switchboard.emit depth) step b).2.plays ≤ b.plays + step.plays := by
      refine plays_runStep_le fun line value _ => ?_
      obtain ⟨_, c, -, hemit, hplays⟩ := emitsWithin_emit depth line value b (by omega)
      rw [hemit]
      exact hplays
    have hrest := ih (b := { (runStep (Switchboard.emit depth) step b).2 with calls := [] })
      (Nat.le_trans (Nat.add_le_add_right hfirst _) (by omega))
    exact Nat.le_trans hrest (Nat.le_trans (Nat.add_le_add_right hfirst _) (by omega))

/-- Emissions work on a snapshot, whatever receivers do on any of the signals while they run, at any
depth.

Let each call change the switchboard in any way, by emissions too: an emission that begins while its
signal lets it through makes one call for each connection that exists at this moment, with the value
that is emitted, and no other; one that begins while the signal is blocked makes none.

If handlers play scripts, then from the beginning of an emission to its end there is a run of scenes
that leads to the very switchboard that the emission leaves, with all notes and records. Emissions
begin in it where scripts say so and nowhere else. Each of them comes to its end and calls exactly
the receivers that are connected when it begins, each connection once, or nobody if the signal is
blocked then; the signal is at this moment what all actions before it have made of it, those of
receivers included. For this the depth has to be as large as the number of plays left, and it is in
every run whose depth is as large as the number of plays that its steps can bring about. -/
theorem emissions_work_on_snapshots :
    (∀ (call : Nat → Int → Switchboard → Switchboard) line value b,
      ∃ connected, (b.signal line).Lists connected ∧
        emitWith call line value b =
          ((if (b.signal line).blocked then [] else connected.map Prod.snd).foldl
            (fun b n => call n value b) (b.announce line)).finish) ∧
    (∀ depth line value (b : Switchboard), b.plays ≤ depth →
      ∃ body, Runs ⟨b.announce line, [[]]⟩ body ⟨Switchboard.emit depth line value b, []⟩ ∧
        OnSnapshots b.signal (.begins line value :: body)) ∧
    ∀ depth steps, Step.playsOf steps ≤ depth → (runAll depth steps start).2.plays ≤ depth := by
  refine ⟨fun call line value b => ?_, fun depth line value b hb => ?_, fun depth steps h => ?_⟩
  · obtain ⟨connected, hlists, haudience⟩ := exists_lists_audience (b.signal line)
    refine ⟨connected, hlists, ?_⟩
    rw [emitWith_eq, haudience]
  · obtain ⟨body, c, hbody, hemit, -⟩ := emitsWithin_emit depth line value b hb
    refine ⟨body ++ [.ends], ?_, hbody.onSnapshots_emission⟩
    rw [hemit]
    exact (hbody.runs []).append (.one (.ends c))
  · have hstart : start.plays = 0 := rfl
    have hbound : start.plays + Step.playsOf steps ≤ depth := by omega
    have hplays := plays_runAll_le steps hbound
    omega

/-- Who was called with what, as far as the note is about a call. -/
def Call.heard? : Call → Option (String × Int)
  | .received name value => some (name, value)
  | .acted _ _ _ => none

/-- While "a" is called it takes "b" off, connects "c", emits again and blocks the signal: the first
emission still calls "b", and not "c"; the one in between calls "a" and "c". -/
theorem emission_reaches_disconnected_handler :
    let b := (runAll 1 [
      .connect .first "a" [.disconnect .first "b", .connect .first "c" [] 0, .emit .first 2,
        .block .first true, .emit .first 3] 1,
      .connect .first "b" [] 0] start).2
    b.plays ≤ 1 ∧
      (Switchboard.emit 1 .first 1 b).calls.filterMap Call.heard? =
        [("a", 1), ("a", 2), ("c", 2), ("b", 1)] ∧
      ∃ body, Runs ⟨b.announce .first, [[]]⟩ body ⟨Switchboard.emit 1 .first 1 b, []⟩ ∧
        (ownCalls 0 body).Perm [(0, 1), (1, 1)] := by
  intro b
  have hb : b.plays ≤ 1 := emissions_work_on_snapshots.2.2 1 _ (by decide)
  obtain ⟨body, hruns, hsnapshots⟩ := emissions_work_on_snapshots.2.1 1 .first 1 b hb
  obtain ⟨connected, hlists, -, hcalls⟩ := hsnapshots [] .first 1 body rfl
  have hconnected : connected.Perm [(⟨0, 1⟩, 0), (⟨1, 1⟩, 1)] := hlists.perm (lists_entries _)
  refine ⟨hb, rfl, body, hruns, ?_⟩
  rw [hcalls]
  exact hconnected.map fun p => (p.2, (1 : Int))

end GroupedRows.Switchboard
