import GroupedRows.Proofs.Session.OwnSteps

/-!
# Tables do not interfere

Leave out of a session all that is done with other tables than one: how this table and
the source answer, and what they tell, stays the same. Listeners do nothing for this, and
what is connected under a name is disconnected from no other signal, because an identifier
may name another connection there.
-/

namespace GroupedRows

open Call Session

/-! ## The session of one table -/

/-- The signal as it is where the table is the only one; others are other tables'. -/
def Channel.alone? (a : TableId) (channel : Channel) : Option Channel :=
  (channel.line? a).map (·.channel 0)

namespace Step

/-- The step makes a table. -/
def makesTable : Step → Bool
  | openTable recipe => recipe.make?.isSome
  | _ => false

/-- How many tables there are after the step. -/
def madeAfter (made : Nat) (step : Step) : Nat := if step.makesTable then made + 1 else made

/-- The step as it is made where the table is the only one, if so many tables have been made before
the step. Steps on other tables are left out, and those that make them, and so are steps that count
the connections of the source, or look at rows that code outside holds. -/
def alone? (a : TableId) (made : Nat) : Step → Option Step
  | source step => some (.source step)
  | askSource query => some (.askSource query)
  | openTable recipe => if recipe.make?.isSome ∧ made ≠ a then none else some (.openTable recipe)
  | closeTable c => if c = a then some (.closeTable 0) else none
  | table c step => if c = a then some (.table 0 step) else none
  | askTable c query => if c = a then some (.askTable 0 query) else none
  | block channel on => (channel.alone? a).map (.block · on)
  | connections channel =>
    if channel.table? = some a then (channel.alone? a).map .connections else none
  | listen name channel script times => (channel.alone? a).map (.listen name · script times)
  | unlisten name channel => (channel.alone? a).map (.unlisten name ·)
  | hold c name => if c = a then some (.hold 0 name) else none
  | held _ => none

/-- The steps as they are made where the table is the only one. -/
def allAlone (a : TableId) : Nat → List Step → List Step
  | _, [] => []
  | made, step :: rest => (step.alone? a made).toList ++ allAlone a (step.madeAfter made) rest

/-- The answer, but for the number of a table that has been made. -/
def reply : Step → Answer → Answer
  | openTable _, .count _ => .done
  | _, answer => answer

end Step

/-- Each line of a table is the same line of the table alone. -/
theorem Line.alone?_channel (a : TableId) (line : Line) :
    (line.channel a).alone? a = some (line.channel 0) := by
  rw [Channel.alone?, Channel.line?_eq_some_iff.2 rfl]
  rfl

/-- A step on a signal that is made where the table is the only one is made on one of its signals,
or of the source's. -/
theorem Channel.exists_line_of_alone? {a : TableId} {channel : Channel} {f : Channel → Step}
    {step : Step} (h : (channel.alone? a).map f = some step) :
    ∃ line : Line, channel = line.channel a ∧ step = f (line.channel 0) := by
  rw [alone?, Option.map_map, Option.map_eq_some_iff] at h
  obtain ⟨line, hline, rfl⟩ := h
  exact ⟨line, line?_eq_some_iff.1 hline, rfl⟩

/-- What has been connected last under the name, if anything, has been connected to the signal. -/
def Owned (owner : String → Option Channel) (name : String) (channel : Channel) : Prop :=
  ∀ other, owner name = some other → channel = other

/-- The signals to which names have been connected last, after the step. -/
def Step.passesOn (s : Session) (owner : String → Option Channel) : Step → String → Option Channel
  | listen name channel _ _ => fun n =>
    if s.hasChannel channel ∧ name = n then some channel else owner n
  | _ => owner

/-- Listeners do nothing, and names are disconnected from the signals that own them. -/
def Step.Courteous (owner : String → Option Channel) : Step → Prop
  | listen _ _ script _ => script = []
  | unlisten name channel => Owned owner name channel
  | _ => True

namespace Session

/-- All steps of the run are courteous, where names have been connected before to the signals of
`owner`. -/
def Courteous (depth : Nat) : (String → Option Channel) → List Step → Session → Prop
  | _, [], _ => True
  | owner, step :: rest, s =>
    step.Courteous owner ∧ Courteous depth (step.passesOn s owner) rest (runTop depth step s).2

/-- What can be seen of a session where the table is the only one: the answers to the steps that are
made there, and the notices of all steps that concern the table. -/
def sightings (a : TableId) :
    Nat → List Step → List (Answer × List Event) → List (Option Answer × List Notice)
  | made, step :: rest, (answer, events) :: results =>
    let told := (events.filterMap Event.noted?).filterMap (·.alone? a)
    let later := sightings a (step.madeAfter made) rest results
    match step.alone? a made with
    | some _ => (some (step.reply answer), told) :: later
    | none => if told = [] then later else (none, told) :: later
  | _, _, _ => []

variable {owns : String → Channel → Prop} {owner : String → Option Channel} {a : TableId}
  {made : Nat} {s s' : Session} {channel : Channel} {step step' : Step}

/-! ## Steps that are made, and steps that are left out -/

/-- A listener takes its name over from the signal to which the name was connected before. -/
theorem owned_of_passesOn {name : String} (hk : s.hasChannel channel = true) {script : List Step}
    {times : Nat} (n : String) (other : Channel)
    (h : Owned ((Step.listen name channel script times).passesOn s owner) n other) :
    if name = n then channel = other else Owned owner n other := by
  split
  · rename_i hname
    exact (h channel (if_pos ⟨hk, hname⟩)).symm
  · rename_i hname
    exact fun other' hother' => h other' ((if_neg fun hc => hname hc.2).trans hother')

/-- Nothing is connected to a signal that does not exist. -/
theorem passesOn_of_missing {name : String} (hk : ¬ s.hasChannel channel = true)
    {script : List Step} {times : Nat} :
    (Step.listen name channel script times).passesOn s owner = owner :=
  funext fun _ => if_neg fun hn => hk hn.1

/-- A listener is connected if the signal exists. -/
theorem run_listen (name : String) (channel : Channel) (script : List Step) (times depth : Nat)
    (s : Session) : (runStep (.listen name channel script times)).run (emit depth) s =
      if s.hasChannel channel then (.done, s.listen name channel script times)
      else (.noTable, s) := by
  change (if s.hasChannel channel then _ else _ : Call Answer).run (emit depth) s = _
  split <;> rfl

/-- Settings that can be made make a table. -/
theorem madeAfter_openTable {recipe : Settings.Recipe} {settings : Settings}
    (h : recipe.make? = some settings) (made : Nat) :
    (Step.openTable recipe).madeAfter made = made + 1 := by
  simp [Step.madeAfter, Step.makesTable, h]

/-- Settings that cannot be made make no table. -/
theorem madeAfter_openTable_of_none {recipe : Settings.Recipe} (h : recipe.make? = none)
    (made : Nat) : (Step.openTable recipe).madeAfter made = made := by
  simp [Step.madeAfter, Step.makesTable, h]

/-- A table is made if the recipe makes settings. -/
theorem run_openTable {recipe : Settings.Recipe} {settings : Settings}
    (h : recipe.make? = some settings) (depth : Nat) (s : Session) :
    (runStep (.openTable recipe)).run (emit depth) s =
      (.count s.tables.length, s.openTable settings) := by
  simp only [runStep, h]
  rfl

/-- Where settings cannot be made, opening a table fails and changes nothing. -/
theorem run_openTable_of_none {recipe : Settings.Recipe} (h : recipe.make? = none) (depth : Nat)
    (s : Session) : (runStep (.openTable recipe)).run (emit depth) s = (.failure .settings, s) := by
  simp only [runStep, h]
  rfl

/-- A step that is made in both sessions is answered alike and keeps them alike. -/
theorem alike_runStep (h : Alike (Owned owner) a made s s') (hstep : step.alone? a made = some step')
    (hc : step.Courteous owner) (depth depth' : Nat) :
    step.reply ((runStep step).run (emit depth) s).1 =
        step'.reply ((runStep step').run (emit depth') s').1 ∧
      Alike (Owned (step.passesOn s owner)) a (step.madeAfter made)
        ((runStep step).run (emit depth) s).2 ((runStep step').run (emit depth') s').2 := by
  have hself : ∀ {c : TableId} {step₀ : Step},
      (if c = a then some step₀ else none) = some step' → c = a ∧ step₀ = step' := by
    intro c step₀ hc
    rwa [Option.ite_none_right_eq_some, Option.some.injEq] at hc
  cases step with
  | source sourceStep =>
    obtain rfl := Option.some.inj hstep
    exact sourcing_twin.runSource sourceStep s s' h depth depth'
  | askSource query =>
    obtain rfl := Option.some.inj hstep
    exact twin_askSource query s s' h depth depth'
  | openTable recipe =>
    rw [Step.alone?, Option.ite_none_left_eq_some, Option.some.injEq] at hstep
    obtain ⟨hmade, rfl⟩ := hstep
    cases hmake : recipe.make? with
    | none =>
      rw [run_openTable_of_none hmake, run_openTable_of_none hmake,
        madeAfter_openTable_of_none hmake]
      exact ⟨rfl, h⟩
    | some settings =>
      obtain rfl : made = a := by simpa [hmake] using hmade
      rw [run_openTable hmake, run_openTable hmake, madeAfter_openTable hmake]
      exact ⟨rfl, h.openTable settings⟩
  | closeTable c =>
    obtain ⟨rfl, rfl⟩ := hself hstep
    exact twin_closeTable s s' h depth depth'
  | table c tableStep =>
    obtain ⟨rfl, rfl⟩ := hself hstep
    exact twin_calling (working_twin.runTable tableStep) s s' h depth depth'
  | askTable c query =>
    obtain ⟨rfl, rfl⟩ := hself hstep
    exact twin_calling (working_twin.askTable twin_settings query) s s' h depth depth'
  | hold c name =>
    obtain ⟨rfl, rfl⟩ := hself hstep
    exact twin_hold name s s' h depth depth'
  | held name => exact absurd hstep.symm (Option.some_ne_none step')
  | block channel on =>
    obtain ⟨line, rfl, rfl⟩ := Channel.exists_line_of_alone? hstep
    exact twin_block line on s s' h depth depth'
  | connections channel =>
    rw [Step.alone?, Option.ite_none_right_eq_some] at hstep
    obtain ⟨line, rfl, rfl⟩ := Channel.exists_line_of_alone? hstep.2
    exact twin_connections hstep.1 s s' h depth depth'
  | unlisten name channel =>
    obtain ⟨line, rfl, rfl⟩ := Channel.exists_line_of_alone? hstep
    exact twin_unlisten hc s s' h depth depth'
  | listen name channel script times =>
    obtain ⟨line, rfl, rfl⟩ := Channel.exists_line_of_alone? hstep
    obtain rfl : script = [] := hc
    rw [run_listen, run_listen, h.hasChannel_eq]
    split
    · rename_i hk
      exact ⟨rfl, h.listen (knows_of_hasChannel hk) (owned_of_passesOn hk) times⟩
    · rename_i hk
      rw [passesOn_of_missing hk]
      exact ⟨rfl, h⟩

/-- What leaves all that concerns the table may happen in the first session alone. -/
theorem Alike.passed {t : Session} (h : Alike owns a made s s') (ht : Passed owns a s t) :
    Alike owns a made t s' :=
  h.left ht.orderly (fun _ _ => id) (ht.made.trans h.made) ht.same

/-- The signal of another table may be used in the first session alone. -/
theorem alike_onChannel (h : Alike owns a made s s') {use : Call Answer} (depth : Nat)
    (huse : s.Knows channel → Alike owns a made (use.run (emit depth) s).2 s') :
    Alike owns a made ((onChannel channel use).run (emit depth) s).2 s' := by
  unfold onChannel
  rw [run_bind, run_read]
  split
  · rename_i hchannel
    exact huse (knows_of_hasChannel hchannel)
  · exact h

/-- A step that is left out of the second session keeps them alike. -/
theorem alike_leftOut (h : Alike (Owned owner) a made s s') (hstep : step.alone? a made = none)
    (hc : step.Courteous owner) (depth : Nat) :
    Alike (Owned (step.passesOn s owner)) a (step.madeAfter made)
      ((runStep step).run (emit depth) s).2 s' := by
  have hother : ∀ {c : TableId} {step₀ : Step}, (if c = a then some step₀ else none) = none →
      c ≠ a := by
    rintro c step₀ hc rfl
    exact Option.some_ne_none step₀ ((if_pos rfl).symm.trans hc)
  have hline : ∀ {channel : Channel} {f : Channel → Step}, (channel.alone? a).map f = none →
      channel.line? a = none := fun hf => by simpa [Channel.alone?] using hf
  cases step with
  | source sourceStep => exact absurd hstep (Option.some_ne_none _)
  | askSource query => exact absurd hstep (Option.some_ne_none _)
  | openTable recipe =>
    obtain ⟨hsome, hmade⟩ : recipe.make?.isSome ∧ made ≠ a := by
      by_contra hnot
      exact Option.some_ne_none _ ((if_neg hnot).symm.trans hstep)
    obtain ⟨settings, hmake⟩ := Option.isSome_iff_exists.1 hsome
    rw [run_openTable hmake, madeAfter_openTable hmake]
    have hnew : a ≠ s.tables.length := fun he => hmade (h.made.symm.trans he.symm)
    exact h.left (h.orderly.openTable settings) (fun _ _ => id)
      (List.length_append.trans (congrArg (· + 1) h.made))
      (h.orderly.sameFor_openTable hnew settings)
  | closeTable c =>
    change Alike (Owned owner) a made (Session.closeTable c s) s'
    unfold Session.closeTable
    split
    · refine h.passed (h.orderly.passed_retire (hother hstep) (fun _ => rfl) fun e hl => ?_)
      exact hl.imp (fun hfalse => absurd hfalse Bool.false_ne_true) id
    · exact h
  | table c tableStep =>
    exact h.passed (h.orderly.passed_calling (hother hstep)
      (working_avoids.runTable tableStep c (hother hstep)) depth)
  | askTable c query =>
    exact h.passed (h.orderly.passed_calling (hother hstep)
      (working_avoids.askTable (fun _ hb => (announcing_avoids hb).settings) query c
        (hother hstep)) depth)
  | hold c name =>
    have hvisible : Avoids (Owned owner) a (visible c) :=
      working_avoids.toAsking.visible c (hother hstep)
    refine h.passed (h.orderly.passed_calling (hother hstep) (Avoids.bind (hvisible.bind
      fun snapshot => ?_) fun _ => avoids_pure _) depth)
    refine (avoids_change fun s => ?_).bind fun _ => avoids_pure _
    have hlinks : SameLinks s { s with held := s.held.insert name snapshot } :=
      ⟨rfl, rfl, rfl, rfl, rfl, id⟩
    exact ⟨hlinks, hlinks.sameFor rfl rfl rfl rfl⟩
  | held name => exact h
  | block channel on =>
    exact alike_onChannel h depth fun hk => h.block_left hk (hline hstep) on
  | connections channel => exact alike_onChannel h depth fun _ => h
  | unlisten name channel =>
    exact alike_onChannel h depth fun hk => h.disconnect_left hk (hline hstep) hc
  | listen name channel script times =>
    obtain rfl : script = [] := hc
    rw [run_listen]
    split
    · rename_i hk
      exact h.listen_left (knows_of_hasChannel hk) (hline hstep) (owned_of_passesOn hk) times
    · rename_i hk
      rw [passesOn_of_missing hk]
      exact h

/-! ## Whole sessions -/

/-- How many tables have been made where the table is the only one. -/
def madeAlone (a : TableId) (made : Nat) : Nat := if a < made then 1 else 0

/-- A step that is left out does not make the table. -/
theorem madeAlone_leftOut (h : step.alone? a made = none) :
    madeAlone a (step.madeAfter made) = madeAlone a made := by
  unfold Step.madeAfter
  split
  · rename_i hmakes
    cases step with
    | openTable recipe =>
      have hne : made ≠ a := by
        intro he
        exact Option.some_ne_none _ ((if_neg fun hand => hand.2 he).symm.trans h)
      have hlt : a < made + 1 ↔ a < made :=
        ⟨fun hlt => Nat.lt_of_le_of_ne (Nat.le_of_lt_succ hlt) (Ne.symm hne), Nat.lt_succ_of_lt⟩
      simp only [madeAlone, hlt]
    | _ => exact absurd hmakes Bool.false_ne_true
  · rfl

/-- A step of the session of one table is made in it as it is. -/
theorem alone?_alone? (h : step.alone? a made = some step') :
    step'.alone? 0 (madeAlone a made) = some step' ∧
      step'.madeAfter (madeAlone a made) = madeAlone a (step.madeAfter made) := by
  cases step with
  | source | askSource =>
    obtain rfl := Option.some.inj h
    exact ⟨rfl, rfl⟩
  | openTable recipe =>
    rw [Step.alone?, Option.ite_none_left_eq_some, Option.some.injEq] at h
    obtain ⟨hmade, rfl⟩ := h
    cases hmake : recipe.make? with
    | none => simp [Step.alone?, madeAfter_openTable_of_none hmake, hmake]
    | some settings =>
      obtain rfl : made = a := by simpa [hmake] using hmade
      simp [Step.alone?, madeAfter_openTable hmake, hmake, madeAlone]
  | closeTable c | table c | askTable c | hold c =>
    rw [Step.alone?, Option.ite_none_right_eq_some, Option.some.injEq] at h
    obtain ⟨rfl, rfl⟩ := h
    exact ⟨rfl, rfl⟩
  | held => exact absurd h.symm (Option.some_ne_none step')
  | connections channel =>
    rw [Step.alone?, Option.ite_none_right_eq_some] at h
    obtain ⟨line, rfl, rfl⟩ := Channel.exists_line_of_alone? h.2
    refine ⟨?_, rfl⟩
    rw [Step.alone?, if_pos (Line.table?_channel_of_eq h.1 0), Line.alone?_channel]
    rfl
  | block | unlisten | listen =>
    obtain ⟨line, rfl, rfl⟩ := Channel.exists_line_of_alone? h
    refine ⟨?_, rfl⟩
    rw [Step.alone?, Line.alone?_channel]
    rfl

/-- What the first session has noted last, it may forget, and so may the second. -/
theorem Alike.rest (h : Alike owns a made s s') :
    Alike owns a made { s with journal := [] } { s' with journal := [] } :=
  h.relink ⟨rfl, rfl, rfl, rfl, rfl, id⟩ ⟨rfl, rfl, rfl, rfl, rfl, id⟩ h.store h.binding h.entry rfl

/-- A run makes its first step and goes on with the others. -/
theorem runAll_cons (depth : Nat) (step : Step) (rest : List Step) (s : Session) :
    runAll depth (step :: rest) s =
      ((runTop depth step s).1 :: (runAll depth rest (runTop depth step s).2).1,
        (runAll depth rest (runTop depth step s).2).2) := rfl

/-- Whole sessions show the same and stay alike, since their steps do. Before each step the second
one has not told anything yet. -/
theorem alike_runAll (depth depth' : Nat) {steps : List Step}
    (h : Alike (Owned owner) a made s s') (hrest : s'.journal = [])
    (hc : Courteous depth owner steps s) :
    sightings a made steps (runAll depth steps s).1 =
        sightings 0 (madeAlone a made) (Step.allAlone a made steps)
          (runAll depth' (Step.allAlone a made steps) s').1 ∧
      ∃ owner' made', Alike (Owned owner') a made' (runAll depth steps s).2
        (runAll depth' (Step.allAlone a made steps) s').2 := by
  induction steps generalizing owner made s s' with
  | nil => exact ⟨rfl, owner, made, h⟩
  | cons step rest ih =>
    obtain ⟨hstep, hlater⟩ := hc
    cases halone : step.alone? a made with
    | none =>
      have hleft := alike_leftOut h halone hstep depth
      have htold : ((runStep step).run (emit depth) s).2.told a = [] := by
        rw [← hleft.told, told, notices, hrest]
        rfl
      have hsilent : { s' with journal := [] } = s' := by
        cases s'
        cases hrest
        rfl
      have hrun := ih (hsilent ▸ hleft.rest) hrest hlater
      rw [madeAlone_leftOut halone] at hrun
      rw [runAll_cons, Step.allAlone, halone, Option.toList_none, List.nil_append]
      refine ⟨?_, hrun.2⟩
      rw [← hrun.1]
      simp only [sightings, halone]
      exact if_pos htold
    | some step' =>
      obtain ⟨hanswer, hnext⟩ := alike_runStep h halone hstep depth depth'
      obtain ⟨hself, hmade⟩ := alone?_alone? halone
      have hrun := ih hnext.rest rfl hlater
      rw [Step.allAlone, halone, Option.toList_some, List.singleton_append, runAll_cons,
        runAll_cons]
      refine ⟨?_, hrun.2⟩
      simp only [sightings, halone, hself, hmade]
      exact congrArg₂ List.cons (congrArg₂ Prod.mk (congrArg some hanswer) hnext.told.symm) hrun.1

/-- Sessions over the same items are alike before any table is made. -/
theorem alike_ofStore (owns : String → Channel → Prop) (a : TableId) (store : ItemStore)
    (log log' : List LogRecord) : Alike owns a 0 (ofStore store log) (ofStore store log') where
  orderly := .ofStore owns store log
  alone := .ofStore (ownsAlone owns a) store log'
  made := rfl
  store := rfl
  binding := rfl
  entry := rfl
  blocked line := by cases line <;> rfl
  counted line _ := by cases line <;> rfl
  connected name line _ := by cases line <;> rfl
  told := rfl

/-- Let any steps be made over any items, with any number of tables, listeners that do nothing, and
names disconnected from the signals to which they have been connected. Then all that can be seen of
one table and of the source is what can be seen where only this table is made: answers and notices
are the same, step by step, and so are items, binding and what the table shows at the end. -/
theorem tables_do_not_interfere {store : ItemStore} {log : List LogRecord} {steps : List Step}
    {depth : Nat} (hc : Courteous depth (fun _ => none) steps (ofStore store log)) (a : TableId)
    (depth' : Nat) (log' : List LogRecord) :
    let alone := Step.allAlone a 0 steps
    let ran := runAll depth steps (ofStore store log)
    let ranAlone := runAll depth' alone (ofStore store log')
    sightings a 0 steps ran.1 = sightings 0 0 alone ranAlone.1 ∧
      ran.2.source.store = ranAlone.2.source.store ∧
      ran.2.source.binding = ranAlone.2.source.binding ∧ ran.2.sight a = ranAlone.2.sight 0 := by
  intro alone ran ranAlone
  obtain ⟨hseen, owner, made, hend⟩ := alike_runAll depth depth' (alike_ofStore _ a store log log')
    rfl hc
  exact ⟨hseen, hend.store.symm, hend.binding.symm, hend.sight_eq.symm⟩

/-- A table goes on to hear of new items when another one is closed that was made before it. -/
theorem tables_do_not_interfere_after_closing :
    let steps : List Step := [
      .openTable (.changes [.properties ["kind"]]),
      .listen "view" .items [] 1,
      .openTable (.changes []),
      .source (.push ⟨.number 2, .empty⟩),
      .table 0 .refresh,
      .closeTable 0,
      .unlisten "view" .items,
      .source (.push ⟨.number 3, .empty⟩),
      .askTable 1 .rows]
    let alone := Step.allAlone 1 0 steps
    let s := start [⟨.number 1, .empty⟩]
    let seen := sightings 1 0 steps (runAll 1 steps s).1
    Courteous 1 (fun _ => none) steps s ∧ seen = sightings 0 0 alone (runAll 1 alone s).1 ∧
      seen.map Prod.snd =
        [[], [], [.items (.added 1 1)], [], [.items (.added 2 1)], [.layout 0]] := by
  intro steps alone s seen
  have hc : Courteous 1 (fun _ => none) steps s := by
    refine ⟨trivial, rfl, trivial, trivial, trivial, trivial, fun other h => ?_, trivial, trivial,
      trivial⟩
    exact Option.some.inj h
  exact ⟨hc, (tables_do_not_interfere hc 1 1 _).1, by decide +kernel⟩

/-- Identifiers of different signals may be equal. What is connected to the layout of the second
table has the identifier of the first table's link to the items. Where the second table is the only
one, this is its own link: it is disconnected, and does not hear of a new item any more. -/
theorem tables_interfere_through_foreign_signal :
    let steps : List Step := [
      .openTable (.changes []),
      .openTable (.changes []),
      .listen "view" (.layout 1) [] 1,
      .unlisten "view" .items,
      .source (.push ⟨.number 2, .empty⟩),
      .askTable 1 .rows]
    let alone := Step.allAlone 1 0 steps
    let s := start [⟨.number 1, .empty⟩]
    (∀ name channel script times, .listen name channel script times ∈ steps → script = []) ∧
      sightings 1 0 steps (runAll 1 steps s).1 ≠ sightings 0 0 alone (runAll 1 alone s).1 := by
  intro steps alone s
  refine ⟨fun name channel script times h => ?_, fun hsame => ?_⟩
  · simp [steps] at h
    exact h.2.2.1
  have htold := congrArg (List.map Prod.snd) hsame
  revert htold
  decide +kernel

end Session

end GroupedRows
