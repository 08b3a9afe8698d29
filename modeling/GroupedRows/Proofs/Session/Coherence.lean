import GroupedRows.Proofs.Session.Entries
import GroupedRows.Proofs.Session.ScriptMoves
import GroupedRows.Proofs.Session.StepAlterations

/-!
# Tables are coherent at every moment

Tables show something new only when a tree of the present items comes in; other changes
of what they show are of few kinds. A condition that all these keep holds of every table
at every moment of a session, also while notices are under way and listeners make calls
of their own. Coherence is such a condition.
-/

namespace GroupedRows

open Session

/-- The condition is met by what tables show of a source anew, and kept by other changes of what
they show. -/
structure Arrangement.Stable (P : Arrangement → Prop) (source : Source) : Prop where
  start : ∀ properties expandAll, P (.start (source.tree properties) expandAll)
  regroup : ∀ (a : Arrangement) properties restore expandAll,
    P (a.regroup (source.tree properties) restore expandAll)
  alters : ∀ {a b : Arrangement}, P a → a.Alters b → P b

/-- Coherence is kept by all that can be done to an arrangement. -/
theorem Arrangement.stable_coherent (source : Source) : Stable Coherent source where
  start _ := coherent_start (GroupTree.isBuilt_build _ _ _)
  regroup a _ := coherent_regroup a (GroupTree.isBuilt_build _ _ _)
  alters h := h.alters

namespace Session

/-- What each table shows meets a condition. -/
abbrev EachArrangement (P : Arrangement → Prop) : Session → Prop :=
  EachTable fun _ e => P e.table.arrangement

/-- What each table shows fits together. -/
abbrev AllCoherent : Session → Prop := EachTable fun _ e => e.table.arrangement.Coherent

variable {P : Arrangement → Prop} {s : Session}

/-- What holds of an arrangement does not depend on the signals of its table. -/
theorem arrangement_ignoresSignals :
    TableEntry.IgnoresSignals fun _ e => P e.table.arrangement := by
  intro c e t ht h
  dsimp only
  rwa [ht.arrangement]

theorem eachArrangement_ofStore (store : ItemStore) (log : List LogRecord) :
    (ofStore store log).EachArrangement P :=
  fun _ _ he => absurd he.symm (Option.some_ne_none _)

namespace EachArrangement

/-- Who disconnects arranges nothing. -/
theorem disconnect (h : s.EachArrangement P) (channel : Channel) (id : Option SlotId) :
    (s.disconnect channel id).2.EachArrangement P :=
  h.setSignal arrangement_ignoresSignals channel _

/-- A table that is disconnected from its source still shows what it has shown. -/
theorem release (h : s.EachArrangement P) (c : TableId) : (s.release c).EachArrangement P := by
  unfold Session.release
  split
  · split
    · exact h
    · exact (disconnect h _ _).disconnect _ _
  · exact h

/-- The number of calls and whether a table is open play no part. -/
theorem modifyEntry (h : s.EachArrangement P) (c : TableId) {f : TableEntry → TableEntry}
    (hf : ∀ e, (f e).table = e.table) : (s.modifyEntry c f).EachArrangement P := by
  refine EachTable.modifyEntry h fun e he => ?_
  rw [hf]
  exact h c e he

/-- If it holds of rebuilt arrangements, it holds after a rebuild. -/
theorem rebuild (h : s.EachArrangement P) (hP : Arrangement.Stable P s.source) (c : TableId)
    (properties : List String) (expandAll : Bool) :
    (s.rebuild c properties expandAll).EachArrangement P := by
  unfold Session.rebuild
  split
  · exact h
  · exact EachTable.modifyTable h fun e _ => hP.regroup _ _ _ _

/-- If it holds of new arrangements, it holds after a table has been opened. -/
theorem openTable (h : s.EachArrangement P) (hP : Arrangement.Stable P s.source)
    (settings : Settings) : (s.openTable settings).EachArrangement P :=
  EachTable.append h (hP.start _ _)

/-- Every alteration keeps the condition for all tables. -/
theorem alters (h : s.EachArrangement P) (hP : Arrangement.Stable P s.source)
    {allowed : Session → Step → Prop} {s' : Session} (hs : Alters allowed s s') :
    s'.EachArrangement P := by
  cases hs with
  | write | hold | bind | load => exact h
  | rebuild c properties expandAll => exact rebuild h hP c properties expandAll
  | arrange c f hf =>
    refine EachTable.modifyTable h fun e he => hP.alters (h c e he) (hf e.table ?_)
    exact table?_eq_some_iff.2 ⟨e, he, rfl⟩
  | openTable settings => exact openTable h hP settings
  | close c | enter c | finish c => exact modifyEntry h c fun _ => rfl
  | release c => exact release h c
  | block channel on => exact h.setSignal arrangement_ignoresSignals channel _
  | listen name channel => exact h.setSignal arrangement_ignoresSignals channel _
  | unlisten name channel => exact disconnect h channel _

/-- A table that hears of a change is arranged as before. -/
theorem receive (h : s.EachArrangement P) (n : Notice) (r : Receiver) :
    (s.receive n r).EachArrangement P := by
  cases r with
  | journal => exact h
  | table c => exact EachTable.modifyTable h fun e he => h c e he
  | listener number => exact h

end EachArrangement

end Session

namespace Moment

/-- Coherence of all tables is safe, whatever code outside does. -/
theorem safe_allCoherent (allowed : Session → Step → Prop) :
    Safe allowed fun _ s => s.AllCoherent :=
  .of_alterations
    (fun _ s _ h hs => EachArrangement.alters h (Arrangement.stable_coherent s.source) hs)
    (fun _ _ _ h => h) (fun _ _ _ _ h _ => h) (fun _ _ _ _ _ _ h => h)
    (fun _ n r _ _ h => EachArrangement.receive h n r) (fun _ _ _ h => h)

/-- At every moment of a session, whatever code outside does from inside any notice, each table
has only groups of its tree open, hence none without grouping, and a snapshot that it keeps is
that of its tree and its open groups. -/
theorem coherent_at_every_moment {store : ItemStore} {log : List LogRecord} {m : Moment}
    (h : Reaches AnyStep ⟨ofStore store log, []⟩ m) :
    ∀ c t, m.session.table? c = some t →
      (∀ k ∈ t.arrangement.expansion, t.tree.contains k = true) ∧
      (t.properties = [] → t.arrangement.expansion = .empty) ∧
      ∀ v, t.arrangement.snapshot = some v → v = .flatten t.tree t.arrangement.expansion := by
  intro c t ht
  have hm : m.session.AllCoherent :=
    (safe_allCoherent AnyStep).holds (eachArrangement_ofStore _ _) h
  obtain ⟨e, rfl, he⟩ := hm.table ht
  exact ⟨he.contains_of_open, he.expansion_eq_empty, he.snapshot_eq⟩

/-- A listener that reads the rows while they are being opened leaves a snapshot behind, which is
that of the opened rows. -/
theorem coherent_after_listener_reads :
    let s := (runAll 1 [
      .openTable (.changes [.properties ["kind"]]),
      .listen "reader" (.layout 0) [.askTable 0 .rows] 2,
      .source (.push ⟨.number 2, .empty⟩),
      .table 0 .expandAll] (start [⟨.number 1, .empty⟩])).2
    ∃ t v, s.table? 0 = some t ∧ t.arrangement.snapshot = some v ∧ v.size = 3 ∧
      v = .flatten t.tree t.arrangement.expansion := by
  intro s
  have hs : Reaches AnyStep ⟨start _, []⟩ ⟨s, []⟩ := reaches_runAll_ofStore _ _ 1 _
  exact ⟨_, _, rfl, rfl, rfl, (coherent_at_every_moment hs 0 _ rfl).2.2 _ rfl⟩

end Moment

end GroupedRows
