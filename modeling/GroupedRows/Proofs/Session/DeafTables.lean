import GroupedRows.Proofs.Session.Entries
import GroupedRows.Proofs.Session.QuietEmission
import GroupedRows.Proofs.SlotTable

/-!
# Tables do not hear tables

No table is connected to a signal of a table. So where listeners are quiet, a notice of a
table changes neither the source nor any table.
-/

namespace GroupedRows

/-- The signals of a table. -/
def Table.signals (t : Table) : List (Signal Receiver) :=
  [t.grouped, t.expanded, t.collapsed, t.layout]

/-- No table is connected to the table's own signals. -/
def Table.Deaf (t : Table) : Prop :=
  ∀ signal ∈ t.signals, ∀ d, .table d ∉ signal.table.values

/-- Freeing a slot adds no value. -/
theorem SlotTable.mem_values_of_mem_remove {α : Type} {t : SlotTable α} {id : SlotId} {a : α}
    (h : a ∈ (t.remove id).values) : a ∈ t.values := by
  unfold remove at h
  split at h
  · obtain ⟨slot, hslot, ha⟩ := List.mem_filterMap.1 h
    rcases List.mem_or_eq_of_mem_set hslot with hs | rfl
    · exact List.mem_filterMap.2 ⟨slot, hs, ha⟩
    · exact absurd ha.symm (Option.some_ne_none a)
  · exact h

namespace Session

/-- No table is connected to a signal of a table. -/
abbrev Deaf : Session → Prop := EachTable fun _ e => e.table.Deaf

variable {s s' : Session} {channel : Channel}

theorem deaf_ofStore (store : ItemStore) (log : List LogRecord) : (ofStore store log).Deaf :=
  fun _ _ he => absurd he.symm (Option.some_ne_none _)

namespace Deaf

/-- No table stands on a signal of a table. -/
theorem not_mem_values (h : s.Deaf) {d : TableId} (hd : channel.table? = some d) (c : TableId) :
    .table c ∉ (s.signal channel).table.values := by
  have hmissing : Receiver.table c ∉ (Signal.empty : Signal Receiver).table.values :=
    List.not_mem_nil
  cases channel with
  | items | binding => exact absurd hd.symm (Option.some_ne_none d)
  | grouped d | expanded d | collapsed d | layout d =>
    cases he : s.tables[d]? with
    | none => simpa [signal, table?, he] using hmissing
    | some e =>
      simp only [signal, table?, he, Option.map_some, Option.getD_some]
      exact h d e he _ (by simp [Table.signals]) c

/-- No table is called by a notice on a signal of a table. -/
theorem not_mem_audience (h : s.Deaf) {d : TableId} (hd : channel.table? = some d)
    (c : TableId) : .table c ∉ (s.signal channel).audience := by
  unfold Signal.audience
  split
  · exact List.not_mem_nil
  · exact not_mem_values h hd c

/-- A notice of a table changes neither source nor tables. -/
theorem emit_table (h : s.Deaf) (hquiet : s.Quiet) (depth : Nat) {n : Notice} {d : TableId}
    (hd : n.channel.table? = some d) :
    (emit depth n s).source = s.source ∧ (emit depth n s).tables = s.tables := by
  have hheard := heard_emit depth n hquiet
  exact ⟨hheard.source, hheard.tables_eq (not_mem_audience h hd)⟩

/-- No table is connected to a table's signal once another receiver has been connected. -/
theorem not_mem_connect (h : s.Deaf) (hchannel : channel.table? ≠ none) {r : Receiver}
    (hr : ∀ d, r ≠ .table d) (d : TableId) :
    .table d ∉ ((s.signal channel).connect r).2.table.values := by
  intro hd
  obtain ⟨c, hc⟩ := Option.ne_none_iff_exists'.1 hchannel
  rcases SlotTable.mem_values_insert hd with hd | hd
  · exact hr d hd.symm
  · exact not_mem_values h hc d hd

/-- The signal of a table may be replaced by one to which no table is connected. -/
theorem setSignal (h : s.Deaf) {new : Signal Receiver}
    (hnew : channel.table? ≠ none → ∀ d, .table d ∉ new.table.values) :
    (s.setSignal channel new).Deaf := by
  cases channel with
  | items | binding => exact h
  | grouped c | expanded c | collapsed c | layout c =>
    refine EachTable.modifyTable h fun e he signal hs => ?_
    have hcases : signal = new ∨ signal ∈ e.table.signals := by
      simp only [Table.signals, List.mem_cons, List.not_mem_nil, or_false] at hs ⊢
      grind
    rcases hcases with rfl | hs
    · exact hnew (Option.some_ne_none c)
    · exact h c e he signal hs

/-- A listener may connect to any signal, and a table to those of the source. -/
theorem connect (h : s.Deaf) (channel : Channel) {r : Receiver}
    (hr : channel.table? ≠ none → ∀ d, r ≠ .table d) : (s.connect channel r).2.Deaf := by
  exact setSignal h fun hc => not_mem_connect h hc (hr hc)

/-- Who disconnects connects no table. -/
theorem disconnect (h : s.Deaf) (channel : Channel) (id : Option SlotId) :
    (s.disconnect channel id).2.Deaf := by
  refine setSignal h fun hc d hd => ?_
  obtain ⟨c, htable⟩ := Option.ne_none_iff_exists'.1 hc
  cases id with
  | none => exact not_mem_values h htable d hd
  | some id => exact not_mem_values h htable d (SlotTable.mem_values_of_mem_remove hd)

/-- Who blocks a signal connects no table. -/
theorem block (h : s.Deaf) (channel : Channel) (on : Bool) : (s.block channel on).Deaf := by
  refine setSignal h fun hc d => ?_
  obtain ⟨c, htable⟩ := Option.ne_none_iff_exists'.1 hc
  exact not_mem_values h htable d

/-- Signals of a new table have only the journal. -/
theorem openTable (h : s.Deaf) (settings : Settings) : (s.openTable settings).Deaf := by
  refine EachTable.append h fun signal hs d => ?_
  have hjournal : signal = (Signal.empty.connect Receiver.journal).2 := by
    simpa [Table.signals] using hs
  rw [hjournal]
  simp [Signal.connect, Signal.empty, SlotTable.insert, SlotTable.empty, SlotTable.values]

end Deaf

end Session

end GroupedRows
