import GroupedRows.Proofs.Session.QuestionRefinement
import GroupedRows.Session.Run

/-!
# Sessions answer as the reference does

Every step of an undisturbed session has the answer of the reference, and the two agree
again after it. So no run shows that tables put off their work and keep what they have
computed.
-/

namespace GroupedRows

open Call Session

/-- The first items of their identifiers, with or without a map of positions. -/
theorem ItemStore.items_ofItems (items : List Item) :
    (ItemStore.ofItems items).items = items.foldl PlainSession.addNew [] := by
  have hfold : ∀ (items : List Item) (s : ItemStore), s.Indexed →
      (items.foldl ItemStore.pushNew s).items = items.foldl PlainSession.addNew s.items := by
    intro items
    induction items with
    | nil => exact fun s _ => rfl
    | cons i rest ih =>
      intro s hs
      have hone : (s.pushNew i).items = PlainSession.addNew s.items i := by
        unfold ItemStore.pushNew PlainSession.addNew
        rw [hs.contains_eq]
        split <;> rfl
      rw [List.foldl_cons, List.foldl_cons, ih _ (hs.pushNew i), hone]
  exact hfold items ItemStore.empty ItemStore.indexed_empty

namespace Refines

variable {s : Session} {w : PlainSession} {c : TableId} (depth : Nat)

/-- A session and the reference start alike. -/
theorem start (items : List Item) : Refines (Session.start items) (PlainSession.start items) where
  undisturbed := .ofStore _ _
  indexed := ItemStore.indexed_ofItems items
  items := ItemStore.items_ofItems items
  binding := rfl
  length := rfl
  tables _ _ he := absurd he.symm (Option.some_ne_none _)

/-! ## The source -/

/-- The source has the identifiers that the reference finds among its items. -/
theorem contains_eq (h : Refines s w) (id : ItemId) :
    s.source.store.contains id = w.source.items.any (·.id = id) := by
  rw [h.indexed.contains_eq, h.items]

/-- A noted position is the place where the reference finds the identifier. -/
theorem position_eq (h : Refines s w) (id : ItemId) :
    s.source.store.positions.get? id = w.position? id := by
  rw [h.indexed.position, ItemStore.ids, List.findIdx?_map, h.items]
  rfl

/-- Exchanged items are announced, and then every table has a change to apply. -/
theorem exchange (h : Refines s w) {store : ItemStore} (hstore : store.Indexed)
    {items : List Item} (hitems : store.items = items) (change : ItemChange) :
    Refines ((Session.announce change).run (emit depth) (s.setStore store)).2
      (w.exchange items) := by
  have he := (h.write [.entry (.itemsChanged change)]).emit_source depth (n := .items change) rfl
    hstore s.source.binding
  rw [h.binding, hitems] at he
  exact he

/-- A session after a step has the answer of the reference and agrees with it. -/
def Matches (r : Answer × Session) (a : Answer × PlainSession) : Prop :=
  r.1 = a.1 ∧ Refines r.2 a.2

theorem push (h : Refines s w) (i : Item) :
    Matches ((Session.runSource (.push i)).run (emit depth) s) (w.runSource (.push i)) := by
  simp only [Session.runSource, Session.push, run_bind, run_read, run_pure, h.contains_eq,
    PlainSession.runSource]
  split
  · exact ⟨rfl, h.write _⟩
  · rename_i hi
    have hnew : s.source.store.contains i.id = false :=
      (h.contains_eq i.id).trans (Bool.eq_false_iff.2 hi)
    simp only [run_bind, run_change, run_pure]
    exact ⟨rfl, h.exchange depth (h.indexed.push hnew) (congrArg (· ++ [i]) h.items) _⟩

theorem insert (h : Refines s w) (position : Nat) (i : Item) :
    Matches ((Session.runSource (.insert position i)).run (emit depth) s)
      (w.runSource (.insert position i)) := by
  simp only [Session.runSource, Session.insert, run_bind, run_read, run_pure, h.contains_eq,
    PlainSession.runSource]
  split
  · exact ⟨rfl, h.write _⟩
  · rename_i hi
    have hnew : s.source.store.contains i.id = false :=
      (h.contains_eq i.id).trans (Bool.eq_false_iff.2 hi)
    have hitems : (s.source.store.insert position i).items =
        w.source.items.insertIdx (min position w.source.items.length) i := by
      rw [← h.items]
      rfl
    simp only [run_bind, run_change, run_pure]
    exact ⟨rfl, h.exchange depth (h.indexed.insert hnew position) hitems _⟩

theorem remove (h : Refines s w) (id : ItemId) :
    Matches ((Session.runSource (.remove id)).run (emit depth) s) (w.runSource (.remove id)) := by
  simp only [Session.runSource, Session.remove, run_bind, run_read, run_pure, h.position_eq,
    PlainSession.runSource]
  cases w.position? id with
  | none => exact ⟨rfl, h⟩
  | some position =>
    have hitems : (s.source.store.removeAt position).items = w.source.items.eraseIdx position :=
      congrArg (·.eraseIdx position) h.items
    simp only [run_bind, run_change, run_pure, h.items]
    exact ⟨rfl, h.exchange depth (h.indexed.removeAt position) hitems _⟩

/-- A change that keeps the identifier has the answer of the reference. -/
theorem modify (h : Refines s w) {id : ItemId} {edit : Item.Edit}
    (hedit : edit.rename.getD id = id) :
    Matches ((Session.runSource (.modify id edit)).run (emit depth) s)
      (w.runSource (.modify id edit)) := by
  simp only [Session.runSource, Session.modify, run_bind, run_read, run_pure, h.position_eq,
    PlainSession.runSource]
  cases hp : w.position? id with
  | none => exact ⟨rfl, h⟩
  | some position =>
    have hindexed : (s.source.store.modifyAt position (·.edit edit)).Indexed :=
      h.indexed.edit ((h.position_eq id).trans hp) hedit
    have hitems : (s.source.store.modifyAt position (·.edit edit)).items =
        w.source.items.modify position (·.edit edit) :=
      congrArg (·.modify position (·.edit edit)) h.items
    simp only [run_bind, run_change, run_pure, h.items]
    exact ⟨rfl, h.exchange depth hindexed hitems _⟩

/-- Only another binding is a change. -/
theorem bind (h : Refines s w) (state : Binding) :
    Matches ((Session.runSource (.bind state)).run (emit depth) s)
      (w.runSource (.bind state)) := by
  simp only [Session.runSource, Session.bind, run_bind, run_read, run_pure,
    PlainSession.runSource, Cell.set, h.binding]
  split
  · exact ⟨rfl, h⟩
  · have he := (h.write [.entry (.bindingChanged state)]).emit_source depth (n := .binding state)
      rfl h.indexed ⟨state⟩
    rw [h.items] at he
    exact ⟨rfl, he⟩

/-- Every step on the source has the answer of the reference. -/
theorem runSource (h : Refines s w) {step : SourceStep} (hplain : (Step.source step).Plain) :
    Matches ((Session.runSource step).run (emit depth) s) (w.runSource step) := by
  cases step with
  | push i => exact h.push depth i
  | insert position i => exact h.insert depth position i
  | remove id => exact h.remove depth id
  | modify id edit => exact h.modify depth hplain
  | replaceAll items =>
    simp only [Session.runSource, Session.replaceAll, run_bind, run_change, run_pure]
    exact ⟨rfl, (h.write (storeLog items)).exchange depth (ItemStore.indexed_ofItems items)
      (ItemStore.items_ofItems items) _⟩
  | clear =>
    simp only [Session.runSource, Session.clear, run_bind, run_change, run_pure]
    exact ⟨rfl, h.exchange depth ItemStore.indexed_empty rfl _⟩
  | bind state => exact h.bind depth state
  | announce change =>
    have he := h.emit_source depth (n := .items change) rfl h.indexed s.source.binding
    rw [h.items, h.binding] at he
    simp only [Session.runSource, run_bind, run_send, run_pure]
    exact ⟨rfl, he⟩
  | loadQuietly items => exact hplain.elim
  | bindQuietly state => exact hplain.elim

/-- A question to the source has the answer of the reference. -/
theorem askSource (h : Refines s w) (query : SourceQuery) :
    Session.askSource query s = w.askSource query := by
  cases query with
  | contents =>
    simp only [Session.askSource, PlainSession.askSource, ItemStore.ids, ItemStore.size, h.items,
      h.binding]
  | item | value | propertyCount =>
    simp only [Session.askSource, PlainSession.askSource, h.get?_eq, h.value?_eq]

/-! ## All steps -/

/-- A call on a table matches what the reference does with its table, if there is one. -/
theorem calling (h : Refines s w) (c : TableId) {call : Call Answer}
    {use : PlainTable → Answer × PlainTable}
    (hcall : ∀ {s : Session} {b : PlainTable}, Refines s w → w.tables[c]? = some b →
      Agrees w c (call.run (emit depth) s) (use b)) :
    Matches ((Session.calling c call).run (emit depth) s) (w.onTable c use) := by
  unfold PlainSession.onTable
  simp only [Session.calling, run_bind, run_read, h.undisturbed.isOpen_eq]
  cases hb : w.tables[c]? with
  | none =>
    have hge : ¬ c < s.tables.length := by
      rw [h.length]
      exact Nat.not_lt.2 (List.getElem?_eq_none_iff.1 hb)
    simp only [hge, decide_false, Bool.false_eq_true, if_false]
    exact ⟨rfl, h⟩
  | some b =>
    have hlt : c < s.tables.length := by
      rw [h.length]
      exact (List.getElem?_eq_some_iff.1 hb).1
    simp only [hlt, decide_true, if_true, run_bind, run_change, run_pure]
    obtain ⟨hanswer, hend⟩ := hcall (h.enter c) hb
    exact ⟨hanswer, hend.leave c⟩

/-- Every plain step has the answer of the reference. -/
theorem runStep (h : Refines s w) {step : Step} (hplain : step.Plain) :
    Matches ((Session.runStep step).run (emit depth) s) (w.run step) := by
  cases step with
  | source step => exact h.runSource depth hplain
  | askSource query =>
    simp only [Session.runStep, run_bind, run_read, run_pure]
    exact ⟨h.askSource query, h⟩
  | openTable recipe =>
    simp only [Session.runStep, PlainSession.run]
    cases recipe.make? with
    | none => exact ⟨rfl, h⟩
    | some settings =>
      simp only [run_bind, run_read, run_change, run_pure, h.length]
      exact ⟨rfl, h.openTable settings⟩
  | table c step => exact h.calling depth c fun h hb => h.runTable depth hb step
  | askTable c query => exact h.calling depth c fun h hb => h.askTable depth hb query
  | hold c name => exact h.calling depth c fun h hb => h.hold depth hb name
  | listen name channel script times =>
    obtain rfl : script = [] := hplain
    simp only [Session.runStep, Session.onChannel, run_bind, run_read,
      h.undisturbed.hasChannel_eq, h.length, PlainSession.run]
    cases channel.table? with
    | none => exact ⟨rfl, h.listen name channel times⟩
    | some c =>
      simp only [Option.all_some, decide_eq_true_eq]
      split
      · exact ⟨rfl, h.listen name channel times⟩
      · exact ⟨rfl, h⟩
  | closeTable | block | connections | unlisten | held => exact hplain.elim

/-- The answers of a run from a session that agrees with the reference. -/
theorem answers_runAll (h : Refines s w) {steps : List Step} (hsteps : ∀ step ∈ steps, step.Plain) :
    (runAll depth steps s).1.map Prod.fst = w.answers steps := by
  induction steps generalizing s w with
  | nil => rfl
  | cons step rest ih =>
    obtain ⟨hanswer, hend⟩ := h.runStep depth (hsteps step List.mem_cons_self)
    have hcleared : Refines { ((Session.runStep step).run (emit depth) s).2 with journal := [] }
        (w.run step).2 := hend.congr hend.undisturbed.quiet rfl rfl
    have hrest := ih hcleared fun step hm => hsteps step (List.mem_cons_of_mem _ hm)
    change _ :: _ = (w.run step).1 :: PlainSession.answers rest (w.run step).2
    rw [← hrest, ← hanswer]
    rfl

end Refines

/-- Every answer of a run is that of the reference, which keeps of a table only its properties,
its open groups and whether a change is pending, and makes trees and rows anew from the list of
items. The run may change the source and any number of tables in any order, as long as changes are
announced, an item keeps its identifier, and listeners do nothing. -/
theorem answers_eq_reference (items : List Item) (depth : Nat) {steps : List Step}
    (h : ∀ step ∈ steps, step.Plain) :
    (runAll depth steps (Session.start items)).1.map Prod.fst =
      PlainSession.answers steps (.start items) :=
  (Refines.start items).answers_runAll depth h

/-- An open group loses its only item to another group, and the rows that are asked for next show
one closed group. -/
theorem answers_eq_reference_after_modify :
    let steps : List Step := [
      .openTable (.changes [.properties ["kind"]]),
      .source (.push ⟨.number 1, .empty⟩),
      .table 0 (.expand (.root "kind" .absent)),
      .askTable 0 .size,
      .source (.modify (.number 1) { set := [("kind", .null)] }),
      .askTable 0 .rows]
    (runAll 0 steps (Session.start [])).1.map Prod.fst = PlainSession.answers steps (.start []) ∧
      PlainSession.answers steps (.start []) =
        [.count 0, .flag true, .flag true, .count 2, .item (some ⟨.number 1, .empty⟩),
          .rows [.group (.root "kind" .null)]] := by
  intro steps
  refine ⟨answers_eq_reference [] 0 ?_, rfl⟩
  simp [steps, Step.Plain]

end GroupedRows
