import GroupedRows.Proofs.ItemStore
import GroupedRows.Proofs.Session.Coherence
import GroupedRows.Proofs.Session.DeafTables

/-!
# Tidy sessions

In a tidy session listeners do nothing, identifiers are apart, in the source and in the
trees of all tables, and what tables show fits together. Signals may be blocked and
connections removed, so a table may show items that the source has no more. Steps that
keep identifiers apart keep a session tidy.
-/

namespace GroupedRows

open Session

/-- The step keeps identifiers apart, and connects only a listener that does nothing. -/
def Step.Tame : Step → Prop
  | .source (.loadQuietly _) => False
  | .source (.modify id edit) => edit.rename.getD id = id
  | .listen _ _ script _ => script = []
  | _ => True

namespace Session

/-- Listeners do nothing, identifiers are apart, and what tables show fits together. -/
structure Tidy (s : Session) : Prop where
  quiet : s.Quiet
  indexed : s.source.store.Indexed
  coherent : s.AllCoherent
  /-- No tree has an item twice. -/
  distinct : s.EachArrangement fun a => a.tree.items.Nodup
  deaf : s.Deaf

variable {s s' : Session}

theorem tidy_start (items : List Item) : (start items).Tidy where
  quiet _ hl := absurd hl List.not_mem_nil
  indexed := ItemStore.indexed_ofItems items
  coherent := eachArrangement_ofStore _ _
  distinct := eachArrangement_ofStore _ _
  deaf := deaf_ofStore _ _

/-! ## Alterations -/

/-- Trees of items with distinct identifiers have no item twice. -/
theorem stable_distinct {source : Source} (h : source.store.Indexed) :
    Arrangement.Stable (fun a => a.tree.items.Nodup) source := by
  have htree : ∀ properties, (source.tree properties).items.Nodup := by
    intro properties
    rw [Source.tree, ItemStore.tree, GroupTree.items_build]
    exact h.nodup
  exact ⟨fun properties _ => htree properties, fun _ properties _ _ => htree properties,
    fun ha hab => hab.tree_eq ▸ ha⟩

@[simp] theorem store_disconnect (s : Session) (channel : Channel) (id : Option SlotId) :
    (s.disconnect channel id).2.source.store = s.source.store :=
  store_setSignal s channel _

variable {allowed : Session → Step → Prop}

/-- No alteration changes the items, except that they are exchanged quietly. -/
theorem store_alters_or (hs : Alters allowed s s') : s'.source.store = s.source.store ∨
    ∃ items, allowed s (.source (.loadQuietly items)) ∧ s'.source.store = .ofAll items := by
  cases hs with
  | rebuild c properties expandAll =>
    refine .inl ?_
    unfold rebuild
    split <;> rfl
  | release c =>
    refine .inl ?_
    unfold release
    split
    · split
      · rfl
      · simp
    · rfl
  | block channel on => exact .inl (store_setSignal s channel _)
  | listen name channel => exact .inl (store_setSignal s channel _)
  | unlisten name channel => exact .inl (store_disconnect s channel _)
  | load items h => exact .inr ⟨items, h, rfl⟩
  | write | hold | bind | arrange | openTable | close | enter | finish => exact .inl rfl

/-- Only a quiet load alters the items. -/
theorem store_alters (hload : ∀ items, ¬ allowed s (.source (.loadQuietly items)))
    (hs : Alters allowed s s') : s'.source.store = s.source.store :=
  (store_alters_or hs).resolve_right fun ⟨items, h, _⟩ => hload items h

/-- Exchanged items have distinct identifiers again if changes in place keep them. -/
theorem indexed_exchanges (h : s.source.store.Indexed)
    (hmodify : ∀ id edit, allowed s (.source (.modify id edit)) → edit.rename.getD id = id)
    {store : ItemStore} (hx : Exchanges allowed s store) : store.Indexed := by
  cases hx with
  | push i hi => exact h.push hi
  | insert position i hi => exact h.insert hi position
  | remove position => exact h.removeAt position
  | modify id edit position hp hkeeps => exact h.edit hp (hmodify id edit hkeeps)
  | replaceAll items => exact ItemStore.indexed_ofItems items

/-- Whatever happens to tables and connections, no table hears a table. -/
theorem Deaf.alters (h : s.Deaf) (hs : Alters allowed s s') :
    s'.Deaf := by
  cases hs with
  | write | hold | bind | load => exact h
  | rebuild c properties expandAll =>
    unfold rebuild
    split
    · exact h
    · exact EachTable.modifyTable h fun e he => h c e he
  | arrange c f hf => exact EachTable.modifyTable h fun e he => h c e he
  | openTable settings => exact Deaf.openTable h settings
  | close c | enter c | finish c => exact EachTable.modifyEntry h fun e he => h c e he
  | release c =>
    unfold release
    split
    · split
      · exact h
      · exact Deaf.disconnect (Deaf.disconnect h _ _) _ _
    · exact h
  | block channel on => exact Deaf.block h channel on
  | listen name channel => exact Deaf.connect h channel fun _ d => by simp
  | unlisten name channel => exact Deaf.disconnect h channel _

namespace Tidy

/-- Alterations by tame steps leave a session tidy. -/
theorem alters (h : s.Tidy) (hs : Alters (fun _ => Step.Tame) s s') : s'.Tidy where
  quiet := by
    intro l hl
    rcases Moment.listeners_alters hs with hsame | ⟨name, channel, script, times, htame, hmore⟩
    · exact h.quiet l (hsame ▸ hl)
    · rw [hmore, List.mem_append, List.mem_singleton] at hl
      rcases hl with hl | rfl
      · exact h.quiet l hl
      · exact htame
  indexed := store_alters (fun _ => id) hs ▸ h.indexed
  coherent := EachArrangement.alters h.coherent (Arrangement.stable_coherent s.source) hs
  distinct := EachArrangement.alters h.distinct (stable_distinct h.indexed) hs
  deaf := Deaf.alters h.deaf hs

/-- Every exchange of the items keeps their identifiers apart. -/
theorem exchange (h : s.Tidy) (change : ItemChange) {store : ItemStore}
    (hx : Exchanges (fun _ => Step.Tame) s store) :
    ((s.setStore store).writeEntry (.itemsChanged change)).Tidy where
  quiet := h.quiet
  indexed := indexed_exchanges h.indexed (fun _ _ hkeeps => hkeeps) hx
  coherent := h.coherent
  distinct := h.distinct
  deaf := h.deaf

/-! ## Runs -/

/-- A notice makes tables stale and does nothing else. -/
theorem emit (h : s.Tidy) (depth : Nat) (n : Notice) : (Session.emit depth n s).Tidy := by
  have hheard := heard_emit depth n h.quiet
  have heach : ∀ {P : TableId → TableEntry → Prop}, (∀ c e, P c e → P c e.stale) →
      s.EachTable P → (Session.emit depth n s).EachTable P := by
    intro P hstale hP c e he
    rw [hheard.tables] at he
    obtain ⟨e', he', rfl⟩ := Option.map_eq_some_iff.1 he
    split
    · exact hstale c e' (hP c e' he')
    · exact hP c e' he'
  exact {
    quiet := hheard.quiet
    indexed := hheard.source ▸ h.indexed
    coherent := heach (fun _ _ he => he) h.coherent
    distinct := heach (fun _ _ he => he) h.distinct
    deaf := heach (fun _ _ he => he) h.deaf }

/-- A call that makes alterations only, and exchanges of tame steps, keeps a session tidy. -/
theorem run {α : Type} (h : s.Tidy) (depth : Nat) {m : Call α}
    (hm : (m.start s).Follows (fun _ => Step.Tame) s) :
    (m.run (Session.emit depth) s).2.Tidy :=
  (hm.keeps h (fun _ _ h hs => h.alters hs) (fun _ _ h => h)
    (fun _ change _ h hx => h.exchange change hx)).finish fun n _ h => h.emit depth n

/-- A tame step leaves a session tidy. -/
theorem runStep (h : s.Tidy) (depth : Nat) {step : Step} (htame : step.Tame) :
    ((Session.runStep step).run (Session.emit depth) s).2.Tidy :=
  h.run depth (follows_runStep htame)

/-- Tame steps leave a session tidy. -/
theorem runAll (h : s.Tidy) (depth : Nat) {steps : List Step}
    (hsteps : ∀ step ∈ steps, step.Tame) : (Session.runAll depth steps s).2.Tidy := by
  induction steps generalizing s with
  | nil => exact h
  | cons step rest ih =>
    obtain ⟨hquiet, hindexed, hcoherent, hdistinct, hdeaf⟩ :=
      h.runStep depth (hsteps step List.mem_cons_self)
    exact ih ⟨hquiet, hindexed, hcoherent, hdistinct, hdeaf⟩ fun step hm =>
      hsteps step (List.mem_cons_of_mem _ hm)

end Tidy

end Session

end GroupedRows
