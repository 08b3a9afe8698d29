import GroupedRows.Proofs.Session.ScriptMoves
import GroupedRows.Proofs.Session.TableCalls
import GroupedRows.Proofs.Session.Tidy
import GroupedRows.Proofs.SourceList

/-!
# The source refines a list

At every moment of a session the source is a list of items with distinct identifiers:
its answers are those of a search in the list, each step on it does what the step does
to the list and sends one notice if it has changed something, and nothing else that
happens in the session, from inside notices or not, changes the list or the binding.
-/

namespace GroupedRows

open Call Session

/-- What the source holds, as a list. -/
def Session.plain (s : Session) : PlainSource := ⟨s.source.store.items, s.source.binding.value⟩

namespace Course

variable {α β : Type}

/-- A course that ends with an answer, after one notice or without any. -/
def announcing (answer : α) (s : Session) : Option Notice → Course α
  | none => .ended answer s
  | some n => .sends n s fun s => .ended answer s

/-- The source holds the same until control is handed over or the course ends. -/
def Still : Session → Course α → Prop
  | s, ended _ t => t.plain = s.plain
  | s, sends _ t rest => t.plain = s.plain ∧ ∀ s, (rest s).Still s

/-- What leaves the list from a session leaves it from any with the same list. -/
theorem Still.of_plain {s t : Session} (h : t.plain = s.plain) {c : Course α} (hc : c.Still t) :
    c.Still s := by
  cases c with
  | ended answer s' => exact Eq.trans hc h
  | sends n s' rest => exact ⟨hc.1.trans h, hc.2⟩

/-- Courses that leave the list leave it one after the other. -/
theorem Still.andThen {s : Session} {c : Course α} {f : α → Session → Course β} (h : c.Still s)
    (hf : ∀ answer s, (f answer s).Still s) : (c.andThen f).Still s := by
  induction c generalizing s with
  | ended answer t => exact (hf answer t).of_plain h
  | sends n t rest ih => exact ⟨h.1, fun t => ih t (h.2 t)⟩

end Course

namespace Call

variable {α β : Type}

/-- From every session the call leaves what the source holds. -/
def Still (m : Call α) : Prop := ∀ s, (m.start s).Still s

theorem still_pure (answer : α) : Still (pure answer : Call α) := fun _ => rfl

theorem Still.bind {m : Call α} {f : α → Call β} (h : Still m) (hf : ∀ answer, Still (f answer)) :
    Still (m >>= f) :=
  fun s => (h s).andThen fun answer => hf answer

theorem Still.map {m : Call α} (h : Still m) (f : α → β) : Still (do return f (← m)) :=
  h.bind fun _ => still_pure _

theorem still_read {f : Session → Call β} (h : ∀ s, Still (f s)) : Still (read >>= f) :=
  fun s => h s s

theorem still_change {f : Session → Session} (h : ∀ s, (f s).plain = s.plain) : Still (change f) :=
  h

theorem start_read_bind (f : Session → Call β) (s : Session) :
    (read >>= f).start s = (f s).start s := rfl

/-- A notice changes no list. -/
theorem still_send (n : Notice) : Still (send n) := fun _ => ⟨rfl, fun _ => rfl⟩

end Call

namespace Session

/-! ## Calls that leave the list -/

variable {s : Session}

theorem plain_rebuild (s : Session) (c : TableId) (properties : List String) (expandAll : Bool) :
    (s.rebuild c properties expandAll).plain = s.plain := by
  unfold rebuild
  split <;> rfl

theorem plain_rearrange (s : Session) (c : TableId) (f : Arrangement → Arrangement) :
    (s.rearrange c f).plain = s.plain := by
  unfold rearrange
  split <;> rfl

theorem plain_look (s : Session) (c : TableId) : (s.look c).plain = s.plain := by
  unfold look
  split <;> rfl

/-- The list does not depend on signals. -/
theorem plain_setSignal (s : Session) (channel : Channel) (signal : Signal Receiver) :
    (s.setSignal channel signal).plain = s.plain := by
  cases channel <;> rfl

theorem plain_disconnect (s : Session) (channel : Channel) (id : Option SlotId) :
    (s.disconnect channel id).2.plain = s.plain :=
  plain_setSignal s channel _

theorem plain_release (s : Session) (c : TableId) : (s.release c).plain = s.plain := by
  unfold release
  split
  · split
    · rfl
    · exact (plain_disconnect _ _ _).trans (plain_disconnect _ _ _)
  · rfl

theorem plain_rearranges {c : TableId} {f : Session → Session} (h : Rearranges c f) (s : Session) :
    (f s).plain = s.plain := by
  induction h generalizing s with
  | rebuild properties expandAll => exact plain_rebuild s c properties expandAll
  | rearrange f => exact plain_rearrange s c f
  | write records _ ih => exact ih (s.write records)

/-- All that announcing calls are composed of leaves the list. -/
theorem announcing_still (c : TableId) : Announcing Still c where
  pure := still_pure
  bind := Still.bind
  read := still_read
  look := still_change fun s => plain_look s c
  send _ := still_send _
  announced _ hf hm := (still_change (plain_rearranges hf)).bind fun _ => hm.bind fun _ =>
    (still_send _).bind fun _ => still_pure _

/-- No call on a table changes the list, since those do not of which it is made. -/
theorem working_still : Working fun {_} m => ∀ c, True → Still (m c) :=
  Announcing.working fun c _ => announcing_still c

/-- A call on a table leaves the list, with its beginning and end. -/
theorem still_calling (c : TableId) {call : Call Answer} (h : Still call) :
    Still (calling c call) := by
  refine still_read fun s => ?_
  split
  · refine (still_change fun s => ?_).bind fun _ => h.bind fun _ =>
      (still_change fun s => ?_).bind fun _ => still_pure _
    · rfl
    · exact plain_release (s.modifyEntry c _) c
  · exact still_pure _

theorem still_onChannel (channel : Channel) {use : Call Answer} (h : Still use) :
    Still (onChannel channel use) := by
  refine still_read fun s => ?_
  split
  · exact h
  · exact still_pure _

/-- A step that is not on the source leaves the list. -/
theorem still_runStep {step : Step} (h : ∀ sourceStep, step ≠ .source sourceStep) :
    Still (runStep step) := by
  cases step with
  | source step => exact absurd rfl (h step)
  | askSource query => exact still_read fun s => still_pure _
  | openTable recipe =>
    simp only [runStep]
    split
    · exact still_pure _
    · refine still_read fun s => (still_change fun s => ?_).bind fun _ => still_pure _
      rfl
  | closeTable c =>
    refine still_read fun s => (still_change fun s => ?_).bind fun _ => still_pure _
    unfold closeTable
    split
    · exact plain_release (s.modifyEntry c _) c
    · rfl
  | table c step => exact still_calling c (working_still.runTable step c trivial)
  | askTable c query =>
    exact still_calling c (working_still.askTable (fun c _ => (announcing_still c).settings) query c
      trivial)
  | block channel on =>
    exact still_onChannel channel ((still_change fun s => plain_setSignal s channel _).bind
      fun _ => still_read fun s => still_pure _)
  | connections channel => exact still_onChannel channel (still_read fun s => still_pure _)
  | listen name channel script times =>
    refine still_onChannel channel ((still_change fun s => ?_).bind fun _ => still_pure _)
    exact plain_setSignal s channel _
  | unlisten name channel =>
    refine still_onChannel channel (Still.map (still_read fun s => ?_) _)
    exact (still_change fun s => plain_disconnect s channel _).bind fun _ => still_pure _
  | hold c name =>
    refine still_calling c (Still.map ?_ _)
    refine (working_still.visible c trivial).bind fun _ => (still_change fun s => ?_).bind fun _ =>
      still_pure _
    rfl
  | held name => exact still_read fun s => still_pure _

/-! ## Steps on the list -/

/-- The step does to the source what it does to the list, and then sends what it announces. -/
def Enacts (s : Session) (step : SourceStep) : Prop :=
  ∃ answer notice? t, s.plain.Step step answer notice? t.plain ∧
    (runSource step).start s = .announcing answer t notice?

/-- A new item is taken unless its identifier is. -/
theorem enacts_add (h : s.source.store.Indexed) {step : SourceStep} {i : Item} {refusal : LogEntry}
    {store : ItemStore} {c : ItemChange}
    (hstart : (runSource step).start s = ((
      if s.source.store.contains i.id then do
        change (·.writeEntry refusal)
        return false
      else do
        change (·.setStore store)
        announce c
        return true : Call Bool) >>= fun added => return .flag added).start s)
    (htaken : i.id ∈ s.plain.ids → s.plain.Step step (.flag false) none s.plain)
    (hnew : i.id ∉ s.plain.ids → s.plain.Step step (.flag true) (some (.items c))
      ⟨store.items, s.source.binding.value⟩) : s.Enacts step := by
  cases hi : s.source.store.contains i.id with
  | true =>
    rw [if_pos hi] at hstart
    exact ⟨_, none, s.writeEntry refusal, htaken ((h.contains_iff i.id).1 hi), hstart⟩
  | false =>
    rw [if_neg (Bool.eq_false_iff.1 hi)] at hstart
    exact ⟨_, _, (s.setStore store).writeEntry (.itemsChanged c), hnew (h.not_mem_ids hi), hstart⟩

/-- The item of an identifier is dealt with where it stands, and given back as it was. -/
theorem enacts_at (h : s.source.store.Indexed) {step : SourceStep} {id : ItemId}
    {store : Nat → ItemStore} {c : Nat → ItemChange}
    (hstart : (runSource step).start s = ((
      match s.source.store.positions.get? id with
      | none => return none
      | some p => do
        change (·.setStore (store p))
        announce (c p)
        return s.source.store.items[p]? : Call (Option Item)) >>= fun i => return .item i).start s)
    (hmissing : id ∉ s.plain.ids → s.plain.Step step (.item none) none s.plain)
    (hfound : ∀ p i, s.source.store.items[p]? = some i → i.id = id →
      s.plain.Step step (.item s.source.store.items[p]?) (some (.items (c p)))
        ⟨(store p).items, s.source.binding.value⟩) : s.Enacts step := by
  cases hp : s.source.store.positions.get? id with
  | none =>
    rw [hp] at hstart
    exact ⟨_, none, s, hmissing (h.position_none hp), hstart⟩
  | some p =>
    rw [hp] at hstart
    obtain ⟨i, hi, hid⟩ := h.item_of_position hp
    exact ⟨_, _, (s.setStore (store p)).writeEntry (.itemsChanged (c p)), hfound p i hi hid, hstart⟩

/-- The binding is announced when another one has been taken. -/
theorem enacts_bind (s : Session) (state : Binding) : s.Enacts (.bind state) := by
  have hstart : ∀ {t notice?}, (bind state).start s = .announcing () t notice? →
      (runSource (.bind state)).start s = .announcing .done t notice? := by
    intro t notice? hbind
    change ((bind state).start s).andThen _ = _
    rw [hbind]
    cases notice? <;> rfl
  by_cases hb : s.source.binding.value = state
  · subst hb
    refine ⟨.done, none, s, .bindSame s.plain, hstart ?_⟩
    rw [bind, start_read_bind, Cell.set, if_pos rfl]
    rfl
  · refine ⟨.done, some (.binding state), (s.modifySource ({ · with binding := ⟨state⟩ })).writeEntry
      (.bindingChanged state), .bind hb, hstart ?_⟩
    rw [bind, start_read_bind, Cell.set, if_neg hb]
    rfl

/-- Every step on the list is enacted by the source while its identifiers are distinct and stand
where they are noted. -/
theorem enacts_runSource (h : s.source.store.Indexed) {step : SourceStep} (hstep : step.OnList) :
    s.Enacts step := by
  cases step with
  | push i => exact enacts_add h rfl .pushTaken (.push _)
  | insert position i =>
    exact enacts_add h rfl (.insertTaken position) (PlainSource.step_insertIdx position _)
  | remove id =>
    refine enacts_at h rfl .removeMissing fun p i hi hid => ?_
    subst hid
    exact PlainSource.step_eraseIdx _ hi
  | modify id edit =>
    refine enacts_at h rfl (.modifyMissing edit) fun p i hi hid => ?_
    subst hid
    exact PlainSource.step_modifyIdx edit _ hi
  | replaceAll items =>
    exact ⟨.done, _, ((s.write (storeLog items)).setStore (.ofItems items)).writeEntry _,
      .replaceAll s.plain (ItemStore.firstOfEach_ofItems items), rfl⟩
  | clear => exact ⟨.done, _, (s.setStore .empty).writeEntry _, .clear s.plain, rfl⟩
  | bind state => exact enacts_bind s state
  | announce | loadQuietly | bindQuietly => exact hstep.elim

/-- The source is a list of items with distinct identifiers. -/
structure RefinesList (s : Session) : Prop where
  distinct : s.plain.ids.Nodup
  /-- Identifiers have exactly the positions at which they stand. -/
  positions : ∀ id p, s.source.store.positions.get? id = some p ↔ s.plain.ids[p]? = some id
  /-- Questions have the answers that a search in the list gives. -/
  answers : ∀ query, askSource query s = s.plain.ask query
  /-- A step does what it does to the list, and then sends what it announces, which tells the
  change. -/
  steps : ∀ step : SourceStep, step.OnList → ∃ answer notice? t,
    (runSource step).start s = .announcing answer t notice? ∧
    s.plain.Step step answer notice? t.plain ∧
    ∀ change, notice? = some (.items change) → change.Describes s.plain.ids t.plain.ids

/-- Where the store is indexed, each question is answered as the list answers it. -/
theorem askSource_eq (h : s.source.store.Indexed) (query : SourceQuery) :
    askSource query s = s.plain.ask query := by
  have hget : s.source.store.get? = s.plain.find? := funext h.get?_eq
  cases query with
  | contents => rfl
  | item id | propertyCount id =>
    simp only [askSource, hget]
    rfl
  | value id property =>
    simp only [askSource, ItemStore.value?, hget]
    rfl

/-- An indexed store does in all respects what the list does. -/
theorem refinesList_of_indexed (h : s.source.store.Indexed) : s.RefinesList where
  distinct := h.nodup
  positions := h.position_iff
  answers := askSource_eq h
  steps step hstep := by
    obtain ⟨answer, notice?, t, hlist, hstart⟩ := enacts_runSource h hstep
    refine ⟨answer, notice?, t, hstart, hlist, ?_⟩
    rintro change rfl
    exact hlist.describes

end Session

namespace Moment

/-- Code outside uses the source as a list: changes are announced, and items keep their
identifiers. -/
def ListUse (_ : Session) (step : Step) : Prop :=
  ∀ sourceStep, step = .source sourceStep → sourceStep.OnList

/-- The store stays indexed as long as changes in place leave identifiers as they are. -/
theorem safe_indexed : Safe ListUse fun _ s => s.source.store.Indexed where
  call _ _ _ hs ha := (follows_runStep ha).keeps hs
    (fun _ _ hs h => store_alters (fun items hload => hload _ rfl) h ▸ hs) (fun _ _ hs => hs)
    fun _ _ _ hs hx => indexed_exchanges hs (fun id edit hkeeps => hkeeps _ rfl) hx
  note _ _ _ _ _ _ hs := hs
  receive _ n r _ s hs := by cases r <;> exact hs
  endEmission _ _ _ hs := hs

variable {m m' : Moment}

/-- Calls that wait will leave the list when they go on. -/
def RestsStill (waiting : List Waiting) : Prop := ∀ w ∈ waiting, ∀ s, (w.rest s).Still s

/-- A course that leaves the list goes on while calls wait that will leave it. -/
theorem RestsStill.goOn {waiting : List Waiting} {c : Course Answer} {s : Session}
    (h : RestsStill waiting) (hc : c.Still s) :
    (goOn waiting c).session.plain = s.plain ∧ RestsStill (goOn waiting c).waiting := by
  cases c with
  | ended answer t => exact ⟨hc, h⟩
  | sends n t rest => exact ⟨hc.1, List.forall_mem_cons.2 ⟨hc.2, h⟩⟩

/-- A call that announces a change at most waits without changing the list any further. -/
theorem RestsStill.announcing {waiting : List Waiting} (h : RestsStill waiting) (answer : Answer)
    (t : Session) (notice? : Option Notice) :
    RestsStill (Moment.goOn waiting (.announcing answer t notice?)).waiting := by
  cases notice? with
  | none => exact h
  | some n => exact List.forall_mem_cons.2 ⟨fun _ => rfl, h⟩

/-- A move leaves the list unless it is the call of a step on it, and then the step has been made
before its notice goes out. -/
theorem moves_list (hm : Moves ListUse m m') (hs : m.session.source.store.Indexed)
    (hw : RestsStill m.waiting) : RestsStill m'.waiting ∧
      (m'.session.plain = m.session.plain ∨ ∃ step answer notice?, SourceStep.OnList step ∧
        m' = goOn m.waiting ((runStep (.source step)).start m.session) ∧
        m.session.plain.Step step answer notice? m'.session.plain) := by
  cases hm with
  | call _ step _ ha =>
    by_cases hsource : ∃ sourceStep, step = .source sourceStep
    · obtain ⟨sourceStep, rfl⟩ := hsource
      obtain ⟨answer, notice?, t, hlist, hstart⟩ := enacts_runSource hs (ha _ rfl)
      have hcalled : (runStep (.source sourceStep)).start m.session =
        .announcing answer t notice? := hstart
      rw [hcalled]
      refine ⟨hw.announcing answer t notice?, .inr ⟨sourceStep, answer, notice?, ha _ rfl, ?_, ?_⟩⟩
      · rw [hcalled]
      · cases notice? <;> exact hlist
    · have hstill := still_runStep (fun sourceStep he => hsource ⟨sourceStep, he⟩) m.session
      exact ⟨(hw.goOn hstill).2, .inl (hw.goOn hstill).1⟩
  | note => exact ⟨hw, .inl rfl⟩
  | receive s n r pending l rest waiting =>
    refine ⟨List.forall_mem_cons.2 (List.forall_mem_cons.1 hw), .inl ?_⟩
    cases r <;> rfl
  | goOn s n l rest waiting =>
    have hrest := (List.forall_mem_cons.1 hw).1 s.endEmission
    have hgone := (List.forall_mem_cons.1 hw).2
    exact ⟨(RestsStill.goOn hgone hrest).2, .inl (RestsStill.goOn hgone hrest).1⟩

/-- A source of any items starts as the list of the first item of each identifier, and let code
outside do anything with the session, from inside notices too, as long as it uses the source as a
list. Then at every moment the source is a list with distinct identifiers, it answers and changes
as the list does, and only a step on the list changes it. -/
theorem source_refines_list {items : List Item}
    (h : Reaches ListUse ⟨start items, []⟩ m) :
    FirstOfEach items (start items).plain.items ∧ m.session.RefinesList ∧
      ∀ m', Moves ListUse m m' → m'.session.plain = m.session.plain ∨
        ∃ step answer notice?, SourceStep.OnList step ∧
          m' = goOn m.waiting ((runStep (.source step)).start m.session) ∧
          m.session.plain.Step step answer notice? m'.session.plain := by
  have hindexed : ∀ {m}, Reaches ListUse ⟨start items, []⟩ m → m.session.source.store.Indexed :=
    safe_indexed.holds (ItemStore.indexed_ofItems items)
  have hrests : RestsStill m.waiting := by
    induction h with
    | refl => exact fun w hw => absurd hw List.not_mem_nil
    | tail hreaches hmoves ih => exact (moves_list hmoves (hindexed hreaches) ih).1
  exact ⟨ItemStore.firstOfEach_ofItems items, refinesList_of_indexed (hindexed h),
    fun m' hmoves => (moves_list hmoves (hindexed h) hrests).2⟩

/-- Of two items with one identifier the first is kept, and an item inserted behind the end comes
last. -/
theorem source_refines_list_after_insert :
    let s := (runAll 0 [.source (.insert 9 ⟨.number 2, .empty⟩)]
      (start [⟨.number 1, .empty⟩, ⟨.number 1, .ofList [("kind", .absent)]⟩])).2
    s.RefinesList ∧ askSource .contents s = .contents [.number 1, .number 2] 2 .active ∧
      s.source.store.positions.get? (.number 2) = some 1 := by
  intro s
  have hp : Playable ListUse fun step => step = .source (.insert 9 ⟨.number 2, .empty⟩) := by
    refine ⟨fun _ _ hstep sourceStep he => ?_, fun _ _ _ _ h => nomatch h⟩
    cases hstep
    cases he
    trivial
  have hs : Reaches ListUse ⟨start _, []⟩ ⟨s, []⟩ :=
    reaches_runAll hp 0 (fun _ => List.mem_singleton.1) fun l hl => absurd hl List.not_mem_nil
  obtain ⟨-, hlist, -⟩ := source_refines_list hs
  exact ⟨hlist, hlist.answers .contents, (hlist.positions _ 1).2 rfl⟩

end Moment

end GroupedRows
