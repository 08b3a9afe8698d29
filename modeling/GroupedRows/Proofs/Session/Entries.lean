import GroupedRows.Session.Run

/-!
# The tables of a session

A condition on each table of a session by its number. Operations that reach one table
need to be looked at for this table only, and the signals of tables play no part.
-/

namespace GroupedRows

/-- The tables differ in their signals only. -/
structure Table.Alike (t t' : Table) : Prop where
  settings : t'.settings = t.settings
  arrangement : t'.arrangement = t.arrangement
  stale : t'.stale = t.stale
  itemsLink : t'.itemsLink = t.itemsLink
  bindingLink : t'.bindingLink = t.bindingLink

/-- The condition does not depend on the signals of tables. -/
def TableEntry.IgnoresSignals (P : TableId → TableEntry → Prop) : Prop :=
  ∀ c e t, e.table.Alike t → P c e → P c { e with table := t }

namespace Session

/-- Each table of the session, closed ones included, meets a condition. -/
def EachTable (P : TableId → TableEntry → Prop) (s : Session) : Prop :=
  ∀ c e, s.tables[c]? = some e → P c e

variable {P Q : TableId → TableEntry → Prop} {s : Session}

/-- A table is the table of its entry. -/
theorem table?_eq_some_iff {c : TableId} {t : Table} :
    s.table? c = some t ↔ ∃ e, s.tables[c]? = some e ∧ e.table = t :=
  Option.map_eq_some_iff

/-- What holds of each table's entry holds of that of any table there is. -/
theorem EachTable.table (h : s.EachTable P) {c : TableId} {t : Table} (ht : s.table? c = some t) :
    ∃ e, e.table = t ∧ P c e := by
  obtain ⟨e, he, rfl⟩ := table?_eq_some_iff.1 ht
  exact ⟨e, rfl, h c e he⟩

/-- What follows for each entry follows for all. -/
theorem EachTable.mono (h : s.EachTable P) (hPQ : ∀ c e, P c e → Q c e) : s.EachTable Q :=
  fun c e he => hPQ c e (h c e he)

/-- A changed entry stands where the entry stood. -/
theorem getElem?_modifyEntry {c : TableId} {e : TableEntry} (he : s.tables[c]? = some e)
    (f : TableEntry → TableEntry) : (s.modifyEntry c f).tables[c]? = some (f e) := by
  change (s.tables.modify c f)[c]? = _
  rw [List.getElem?_modify, he]
  exact congrArg some (if_pos rfl)

/-- After a change of one entry, this entry is another and the others are as before. -/
theorem eachTable_modifyEntry {c : TableId} {f : TableEntry → TableEntry}
    (hf : ∀ e, s.tables[c]? = some e → P c (f e))
    (hother : ∀ d e, d ≠ c → s.tables[d]? = some e → P d e) : (s.modifyEntry c f).EachTable P := by
  intro d e hd
  change (s.tables.modify c f)[d]? = some e at hd
  rw [List.getElem?_modify] at hd
  obtain ⟨e', he', rfl⟩ := Option.map_eq_some_iff.1 hd
  split
  · rename_i hcd
    subst hcd
    exact hf e' he'
  · rename_i hcd
    exact hother d e' (Ne.symm hcd) he'

/-- A change of one entry is a matter of this entry. -/
theorem EachTable.modifyEntry {c : TableId} {f : TableEntry → TableEntry} (h : s.EachTable P)
    (hf : ∀ e, s.tables[c]? = some e → P c (f e)) : (s.modifyEntry c f).EachTable P :=
  eachTable_modifyEntry hf fun d e _ he => h d e he

/-- A change of a table that keeps the condition keeps it for each table. -/
theorem EachTable.modifyTable {c : TableId} {f : Table → Table} (h : s.EachTable P)
    (hf : ∀ e, s.tables[c]? = some e → P c { e with table := f e.table }) :
    (s.modifyTable c f).EachTable P :=
  h.modifyEntry hf

/-- A further table is a matter of this table. -/
theorem EachTable.append {e : TableEntry} (h : s.EachTable P) (he : P s.tables.length e) :
    EachTable P { s with tables := s.tables ++ [e] } := by
  intro c e' hc
  change (s.tables ++ [e])[c]? = some e' at hc
  rw [List.getElem?_append] at hc
  split at hc
  · exact h c e' hc
  · rename_i hge
    rw [List.getElem?_singleton] at hc
    split at hc
    · rename_i hzero
      obtain rfl := Option.some.inj hc
      obtain rfl : c = s.tables.length :=
        Nat.le_antisymm (Nat.sub_eq_zero_iff_le.1 hzero) (Nat.not_lt.1 hge)
      exact he
    · exact absurd hc.symm (Option.some_ne_none e')

/-- Replacing a signal makes no tables. -/
theorem length_setSignal (s : Session) (channel : Channel) (signal : Signal Receiver) :
    (s.setSignal channel signal).tables.length = s.tables.length := by
  cases channel <;> simp [setSignal, modifySource, Session.modifyTable, Session.modifyEntry]

@[simp] theorem store_setSignal (s : Session) (channel : Channel) (signal : Signal Receiver) :
    (s.setSignal channel signal).source.store = s.source.store := by
  cases channel <;> rfl

/-- A table that is disconnected keeps its place. -/
theorem tables_release (s : Session) (c : TableId) : (s.release c).tables = s.tables := by
  unfold release
  split
  · split <;> rfl
  · rfl

/-- Signals of tables may be replaced freely. -/
theorem EachTable.setSignal (hP : TableEntry.IgnoresSignals P) (h : s.EachTable P)
    (channel : Channel) (signal : Signal Receiver) : (s.setSignal channel signal).EachTable P := by
  cases channel with
  | items => exact h
  | binding => exact h
  | grouped c | expanded c | collapsed c | layout c =>
    exact h.modifyTable fun e he => hP c e _ ⟨rfl, rfl, rfl, rfl, rfl⟩ (h c e he)

end Session

end GroupedRows
