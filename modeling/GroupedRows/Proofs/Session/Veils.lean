import GroupedRows.Proofs.Session.SourceCalls
import GroupedRows.Proofs.Session.TableCalls
import GroupedRows.Session.Run

/-!
# Sessions that cannot be told apart

A veil hides some of what a session keeps: the log, perhaps the grouping properties in the
settings of one table, and perhaps the calls of listeners. What each function of a session reads
is seen through every veil, and what it changes is seen as the same change of what was seen.
-/

namespace GroupedRows

open Call Session

/-- What is not seen when sessions are compared, besides the log. -/
structure Veil where
  /-- The table whose settings are not seen. -/
  settings : Option TableId
  /-- Whether calls of listeners are not seen. -/
  calls : Bool

namespace Veil

/-- Only the settings of a table are not seen. -/
def overSettings (c : TableId) : Veil := ⟨some c, false⟩

/-- Only the calls of listeners are not seen. -/
def overCalls : Veil := ⟨none, true⟩

/-- Whether the answer to a step is seen. -/
def sees (v : Veil) : Step → Bool
  | .askTable c .settings => v.settings ≠ some c
  | _ => true

/-- Whether an event is seen. -/
def notes (v : Veil) : Event → Bool
  | .noted _ => true
  | .heard _ _ => !v.calls
  | .acted _ step _ => v.sees step

/-- What is seen of the answer to a step and of its events. -/
def result (v : Veil) (step : Step) (r : Answer × List Event) : Option Answer × List Event :=
  (if v.sees step then some r.1 else none, r.2.filter v.notes)

/-- What is seen of a run of steps. -/
def results (v : Veil) (steps : List Step) (results : List (Answer × List Event)) :
    List (Option Answer × List Event) :=
  List.zipWith v.result steps results

/-- The table without the properties in settings that are not seen. -/
def table (v : Veil) (c : TableId) (t : Table) : Table :=
  { t with settings := if v.settings = some c then t.settings.ungrouped else t.settings }

/-- What is seen of an entry. -/
def entry (v : Veil) (c : TableId) (e : TableEntry) : TableEntry :=
  { e with table := v.table c e.table }

/-- If calls are not seen, a listener that has nothing to do is one that is called no more. -/
def listener (v : Veil) (l : Listener) : Listener :=
  { l with left := if v.calls && l.script.isEmpty then 0 else l.left }

end Veil

/-- The source when a table has been connected to both of its signals. -/
def Source.linked (source : Source) (c : TableId) : Source :=
  { source with
    itemsChanged := (source.itemsChanged.connect (.table c)).2
    bindingChanged := (source.bindingChanged.connect (.table c)).2 }

/-- The entry of a table that has just been made over a source. -/
def TableEntry.made (settings : Settings) (source : Source) : TableEntry where
  table :=
    let journal := (Signal.empty.connect Receiver.journal).2
    ⟨settings, .start (source.tree settings.properties) settings.expandOnGrouping, false,
      source.itemsChanged.table.nextId, source.bindingChanged.table.nextId, journal, journal,
      journal, journal⟩
  isOpen := true
  calls := 0

namespace Session

/-- The session as far as it is seen. -/
def veiled (v : Veil) (s : Session) : Session :=
  { s with
    tables := s.tables.mapIdx v.entry
    listeners := s.listeners.map v.listener
    journal := s.journal.filter v.notes
    log := [] }

variable {v : Veil} {s s' : Session} {c : TableId} {channel : Channel}

/-! ## What a step reads -/

/-- What is seen of a table is what is seen of its entry. -/
theorem getElem?_veiled (s : Session) (c : TableId) :
    (s.veiled v).tables[c]? = s.tables[c]?.map (v.entry c) :=
  List.getElem?_mapIdx

theorem length_tables_veiled (s : Session) : (s.veiled v).tables.length = s.tables.length :=
  List.length_mapIdx

theorem length_listeners_veiled (s : Session) :
    (s.veiled v).listeners.length = s.listeners.length :=
  List.length_map _

/-- A table is seen as the veil shows it. -/
theorem table?_veiled (s : Session) (c : TableId) :
    (s.veiled v).table? c = (s.table? c).map (v.table c) := by
  rw [table?, table?, getElem?_veiled, Option.map_map, Option.map_map]
  rfl

theorem isOpen_veiled (s : Session) (c : TableId) : (s.veiled v).isOpen c = s.isOpen c := by
  rw [isOpen, isOpen, getElem?_veiled]
  cases s.tables[c]? <;> rfl

theorem hasChannel_veiled (s : Session) (channel : Channel) :
    (s.veiled v).hasChannel channel = s.hasChannel channel := by
  cases channel with
  | items | binding => rfl
  | grouped c | expanded c | collapsed c | layout c => exact isOpen_veiled s c

/-- Signals are seen as they are. -/
theorem signal_veiled (s : Session) (channel : Channel) :
    (s.veiled v).signal channel = s.signal channel := by
  cases channel with
  | items | binding => rfl
  | grouped c | expanded c | collapsed c | layout c =>
    simp only [signal, table?_veiled, Option.map_map]
    rfl

/-- What an answer about a table can depend on is seen. -/
theorem sight_veiled (s : Session) (c : TableId) : (s.veiled v).sight c = s.sight c := by
  have hsettings : ∀ t, (v.table c t).settings.ungrouped = t.settings.ungrouped := by
    intro t
    unfold Veil.table
    split <;> rfl
  rw [sight, sight, table?_veiled, Option.map_map]
  congr 1
  funext t
  simp only [Function.comp_apply, hsettings]
  rfl

/-! ## What a step changes -/

/-- A change of an entry that commutes with the veil is seen as the change. -/
theorem veiled_modifyEntry {f : TableEntry → TableEntry}
    (hf : ∀ e, v.entry c (f e) = f (v.entry c e)) :
    (s.modifyEntry c f).veiled v = (s.veiled v).modifyEntry c f := by
  have htables : (s.tables.modify c f).mapIdx v.entry = (s.tables.mapIdx v.entry).modify c f := by
    refine List.ext_getElem? fun d => ?_
    rw [List.getElem?_mapIdx, List.getElem?_modify, List.getElem?_modify, List.getElem?_mapIdx]
    by_cases hd : c = d
    · subst hd
      simp only [if_true, Option.map_eq_map, Option.map_map, Function.comp_def, hf]
    · simp only [hd, if_false, Option.map_eq_map, Option.map_map, Function.comp_def]
  exact congrArg (fun tables => { s.veiled v with tables }) htables

/-- A change of a table that commutes with the veil is seen as the change. -/
theorem veiled_modifyTable {f : Table → Table} (hf : ∀ t, v.table c (f t) = f (v.table c t)) :
    (s.modifyTable c f).veiled v = (s.veiled v).modifyTable c f :=
  veiled_modifyEntry fun e => congrArg (fun table => { e with table }) (hf e.table)

theorem veiled_setSignal (s : Session) (channel : Channel) (signal : Signal Receiver) :
    (s.setSignal channel signal).veiled v = (s.veiled v).setSignal channel signal := by
  cases channel with
  | items | binding => rfl
  | grouped c | expanded c | collapsed c | layout c => exact veiled_modifyTable fun _ => rfl

theorem veiled_connect (s : Session) (channel : Channel) (r : Receiver) :
    (s.connect channel r).2.veiled v = ((s.veiled v).connect channel r).2 := by
  unfold connect
  rw [signal_veiled]
  exact veiled_setSignal s channel _

/-- The identifier that a receiver gets is seen. -/
theorem fst_connect_veiled (s : Session) (channel : Channel) (r : Receiver) :
    ((s.veiled v).connect channel r).1 = (s.connect channel r).1 := by
  unfold connect
  rw [signal_veiled]

theorem veiled_disconnect (s : Session) (channel : Channel) (id : Option SlotId) :
    (s.disconnect channel id).2.veiled v = ((s.veiled v).disconnect channel id).2 := by
  unfold disconnect
  rw [signal_veiled]
  exact veiled_setSignal s channel _

theorem fst_disconnect_veiled (s : Session) (channel : Channel) (id : Option SlotId) :
    ((s.veiled v).disconnect channel id).1 = (s.disconnect channel id).1 := by
  unfold disconnect
  rw [signal_veiled]

/-- Of a change of a table that is written to the log only the change is seen. -/
theorem veiled_onTable (s : Session) {records : Table → List LogRecord} {f : Table → Table}
    (hf : ∀ t, v.table c (f t) = f (v.table c t)) :
    Session.veiled v (match s.table? c with
      | none => s
      | some t => (s.write (records t)).modifyTable c f) = (s.veiled v).modifyTable c f := by
  cases ht : s.table? c with
  | some t => exact veiled_modifyTable (s := s.write (records t)) hf
  | none =>
    have hlength : (s.veiled v).tables.length ≤ c := by
      rw [table?, Option.map_eq_none_iff, List.getElem?_eq_none_iff] at ht
      rwa [length_tables_veiled]
    have hsame : (s.veiled v).tables.modify c (fun e => { e with table := f e.table }) =
        (s.veiled v).tables := List.modify_eq_self hlength
    exact congrArg (fun tables => { s.veiled v with tables }) hsame.symm

/-- A rebuild is seen as a change of the table. -/
theorem veiled_rebuild (s : Session) (c : TableId) (properties : List String) (expandAll : Bool) :
    (s.rebuild c properties expandAll).veiled v =
      (s.veiled v).modifyTable c fun t => t.rebuilt s.source properties expandAll := by
  refine veiled_onTable s fun t => ?_
  unfold Veil.table
  split <;> rfl

/-- To rearrange a table is seen as a new arrangement, without the log. -/
theorem veiled_rearrange (s : Session) (c : TableId) (f : Arrangement → Arrangement) :
    (s.rearrange c f).veiled v = (s.veiled v).arrange c f :=
  veiled_onTable s fun _ => rfl

/-- A look is seen as a new arrangement, without the log. -/
theorem veiled_look (s : Session) (c : TableId) :
    (s.look c).veiled v = (s.veiled v).arrange c Arrangement.looked :=
  veiled_onTable s fun _ => rfl

/-- An event is seen in the journal if the veil lets it through. -/
theorem veiled_note (s : Session) (e : Event) :
    (s.note e).veiled v =
      { s.veiled v with journal := (s.veiled v).journal ++ [e].filter v.notes } := by
  simp only [veiled, note, List.filter_append]

/-- A new table is seen behind the others. -/
theorem veiled_openTable (s : Session) (settings : Settings) :
    (s.openTable settings).veiled v =
      { s.veiled v with
        source := s.source.linked s.tables.length
        tables := (s.veiled v).tables ++ [v.entry s.tables.length (.made settings s.source)] } := by
  have hopened : (s.openTable settings).veiled v =
      { s.veiled v with
        source := s.source.linked s.tables.length
        tables := (s.tables ++ [TableEntry.made settings s.source]).mapIdx v.entry } := rfl
  rw [hopened, List.mapIdx_concat]
  rfl

/-- A release is seen as it is. -/
theorem veiled_release (s : Session) (c : TableId) :
    (s.release c).veiled v = (s.veiled v).release c := by
  unfold release
  rw [getElem?_veiled]
  cases s.tables[c]? with
  | none => rfl
  | some e =>
    change Session.veiled v (if e.isOpen = true ∨ e.calls ≠ 0 then s else _) =
      if e.isOpen = true ∨ e.calls ≠ 0 then s.veiled v else _
    split
    · rfl
    · exact (veiled_disconnect _ .binding _).trans
        (congrArg (fun s => (s.disconnect .binding (some e.table.bindingLink)).2)
          (veiled_disconnect s .items _))

end Session

end GroupedRows
