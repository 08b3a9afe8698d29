import GroupedRows.Session.Answer
import GroupedRows.Table

/-!
# The state of a session

A session has one source and any number of tables over it, listeners, names under
which connections and snapshots are kept, the journal, and the log.
-/

namespace GroupedRows

/-- A script that is played on each of the next `left` calls. -/
structure Listener where
  name : String
  script : List Step
  left : Nat

/-- Everything that a later step can depend on, and what has been noted so far. -/
structure Session where
  source : Source
  /-- Tables by number; closed ones keep their place. -/
  tables : List TableEntry
  /-- Listeners by number, disconnected ones included. -/
  listeners : List Listener
  /-- The connection made last under each name. -/
  names : OrderedMap String SlotId
  held : OrderedMap String Snapshot
  /-- Events of the present step. -/
  journal : List Event
  log : List LogRecord

namespace Session

/-- Notes an event. -/
def note (s : Session) (e : Event) : Session := { s with journal := s.journal ++ [e] }

/-- Logs records. -/
def write (s : Session) (records : List LogRecord) : Session := { s with log := s.log ++ records }

/-- Logs a single fact. -/
def writeEntry (s : Session) (e : LogEntry) : Session := s.write [.entry e]

/-- The table with a number, also while calls on it outlast its closing. -/
def table? (s : Session) (c : TableId) : Option Table := s.tables[c]?.map TableEntry.table

/-- Whether a table can be used by steps. -/
def isOpen (s : Session) (c : TableId) : Bool := s.tables[c]?.any TableEntry.isOpen

/-- Whether the signal exists for steps: those of a table need it open. -/
def hasChannel (s : Session) (channel : Channel) : Bool :=
  match channel.table? with
  | none => true
  | some c => s.isOpen c

/-- Changes the entry of a table. -/
def modifyEntry (s : Session) (c : TableId) (f : TableEntry → TableEntry) : Session :=
  { s with tables := s.tables.modify c f }

/-- Changes a table. -/
def modifyTable (s : Session) (c : TableId) (f : Table → Table) : Session :=
  s.modifyEntry c fun e => { e with table := f e.table }

/-- Changes what a table shows. -/
def arrange (s : Session) (c : TableId) (f : Arrangement → Arrangement) : Session :=
  s.modifyTable c fun t => { t with arrangement := f t.arrangement }

/-- Changes the source. -/
def modifySource (s : Session) (f : Source → Source) : Session := { s with source := f s.source }

/-- Changes the items of the source. -/
def setStore (s : Session) (store : ItemStore) : Session :=
  s.modifySource fun source => { source with store := store }

/-- The signal of a channel; nobody is connected to that of a missing table. -/
def signal (s : Session) : Channel → Signal Receiver
  | .items => s.source.itemsChanged
  | .binding => s.source.bindingChanged
  | .grouped c => ((s.table? c).map Table.grouped).getD .empty
  | .expanded c => ((s.table? c).map Table.expanded).getD .empty
  | .collapsed c => ((s.table? c).map Table.collapsed).getD .empty
  | .layout c => ((s.table? c).map Table.layout).getD .empty

/-- Replaces the signal of a channel. -/
def setSignal (s : Session) (channel : Channel) (signal : Signal Receiver) : Session :=
  match channel with
  | .items => s.modifySource fun source => { source with itemsChanged := signal }
  | .binding => s.modifySource fun source => { source with bindingChanged := signal }
  | .grouped c => s.modifyTable c fun t => { t with grouped := signal }
  | .expanded c => s.modifyTable c fun t => { t with expanded := signal }
  | .collapsed c => s.modifyTable c fun t => { t with collapsed := signal }
  | .layout c => s.modifyTable c fun t => { t with layout := signal }

/-- Connects a receiver. -/
def connect (s : Session) (channel : Channel) (r : Receiver) : SlotId × Session :=
  let (id, signal) := (s.signal channel).connect r
  (id, s.setSignal channel signal)

/-- Disconnects the receiver of an identifier and tells whether there was one. -/
def disconnect (s : Session) (channel : Channel) (id : Option SlotId) : Bool × Session :=
  let (found, signal) := (s.signal channel).disconnect id
  (found, s.setSignal channel signal)

/-- A session over a source, with nothing but the journal connected to its signals. -/
def ofStore (store : ItemStore) (log : List LogRecord) : Session :=
  let s : Session := ⟨.ofStore store, [], [], .empty, .empty, [], log⟩
  ((s.connect .items .journal).2.connect .binding .journal).2

/-- Records of making a store of items with distinct identifiers. -/
def storeLog (items : List Item) : List LogRecord :=
  let dropped := ItemStore.droppedCount items
  if dropped = 0 then [] else [.entry (.duplicatesDropped dropped)]

/-- A session over a source that keeps identifiers apart. -/
def start (items : List Item) : Session := ofStore (.ofItems items) (storeLog items)

/-- A session over a source that keeps every item. -/
def startRaw (items : List Item) : Session := ofStore (.ofAll items) []

end Session

end GroupedRows
