import GroupedRows.Session.Questions
import GroupedRows.Session.SourceSteps

/-!
# Running a session

Steps run one after the other, and steps of scripts run inside the emission that calls
their listener. Each play of a script uses up one call of its listener, so the plays
that a list of steps can bring about bound how deep emissions nest.
-/

namespace GroupedRows.Session

open Call

/-- Disconnects a closed table from its source unless a call on it is still running. -/
def release (c : TableId) (s : Session) : Session :=
  match s.tables[c]? with
  | some e =>
    if e.isOpen ∨ e.calls ≠ 0 then s
    else
      let s := (s.disconnect .items (some e.table.itemsLink)).2
      (s.disconnect .binding (some e.table.bindingLink)).2
  | none => s

/-- Makes a table over the source, with the journal connected to its signals. -/
def openTable (settings : Settings) (s : Session) : Session :=
  let c := s.tables.length
  let (itemsLink, s) := s.connect .items (.table c)
  let (bindingLink, s) := s.connect .binding (.table c)
  let tree := s.source.tree settings.properties
  let journal := (Signal.empty.connect Receiver.journal).2
  let table : Table :=
    ⟨settings, .start tree settings.expandOnGrouping, false, itemsLink, bindingLink,
      journal, journal, journal, journal⟩
  let s := s.write (Arrangement.startLog tree settings.expandOnGrouping)
  { s with tables := s.tables ++ [⟨table, true, 0⟩] }

/-- Closes a table, if it is open. -/
def closeTable (c : TableId) (s : Session) : Session :=
  if s.isOpen c then release c (s.modifyEntry c fun e => { e with isOpen := false }) else s

/-- A call on a table begins. -/
def enter (c : TableId) (s : Session) : Session :=
  s.modifyEntry c fun e => { e with calls := e.calls + 1 }

/-- A call on a table returns. -/
def leave (c : TableId) (s : Session) : Session :=
  release c (s.modifyEntry c fun e => { e with calls := e.calls - 1 })

/-- Makes a call on an open table, which keeps the table connected until it returns. -/
def calling (c : TableId) (call : Call Answer) : Call Answer := do
  if (← read).isOpen c then
    change (enter c)
    let answer ← call
    change (leave c)
    return answer
  else return .noTable

/-- Uses a signal if it exists. -/
def onChannel (channel : Channel) (use : Call Answer) : Call Answer := do
  if (← read).hasChannel channel then use else return .noTable

/-- Holds emissions of a signal back, or lets them through again. -/
def block (channel : Channel) (on : Bool) (s : Session) : Session :=
  s.setSignal channel ((s.signal channel).setBlocked on)

/-- Connects a new listener and keeps the connection under its name. -/
def listen (name : String) (channel : Channel) (script : List Step) (times : Nat) (s : Session) :
    Session :=
  let (id, s) := s.connect channel (.listener s.listeners.length)
  { s with
    listeners := s.listeners ++ [⟨name, script, times⟩]
    names := s.names.insert name id }

/-- Disconnects what was connected last under a name, if it is connected to the signal. -/
def unlisten (name : String) (channel : Channel) : Call Bool := do
  let s ← read
  change fun s => (s.disconnect channel (s.names.get? name)).2
  return (s.disconnect channel (s.names.get? name)).1

/-- Keeps the visible rows of a table under a name and tells how many there are. -/
def hold (c : TableId) (name : String) : Call Nat := do
  let snapshot ← visible c
  change fun s => { s with held := s.held.insert name snapshot }
  return snapshot.size

/-- Runs one step. -/
def runStep (step : Step) : Call Answer :=
  match step with
  | .source step => runSource step
  | .askSource query => return askSource query (← read)
  | .openTable recipe =>
    match recipe.make? with
    | none => return .failure .settings
    | some settings => do
      let s ← read
      change (openTable settings)
      return .count s.tables.length
  | .closeTable c => do
    let s ← read
    change (closeTable c)
    return .flag (s.isOpen c)
  | .table c step => calling c (runTable c step)
  | .askTable c query => calling c (askTable c query)
  | .block channel on => onChannel channel do
    change (block channel on)
    return .flag ((← read).signal channel).blocked
  | .connections channel => onChannel channel do
    return .count ((← read).signal channel).count
  | .listen name channel script times => onChannel channel do
    change (listen name channel script times)
    return .done
  | .unlisten name channel => onChannel channel do return .flag (← unlisten name channel)
  | .hold c name => calling c do return .count (← hold c name)
  | .held name => return .heldRows (((← read).held.get? name).map Snapshot.rows)

/-- Plays a script; the journal notes the answer to each step. -/
def play (emit : Emit) (name : String) (script : List Step) (s : Session) : Session :=
  script.foldl (fun s step =>
    let (answer, s) := (runStep step).run emit s
    s.note (.acted name step answer)) s

/-- What a listener does when it is called: while calls are left it uses one up, and then plays
its script. -/
def act (emit : Emit) (number : Nat) : Emit := fun n s =>
  match s.listeners[number]? with
  | none => s
  | some l =>
    if l.left = 0 then s
    else
      let s := { s with listeners := s.listeners.set number { l with left := l.left - 1 } }
      play emit l.name l.script (s.note (.heard l.name n))

/-- Emission in which scripts are played at most `depth` deep. -/
def emit : Nat → Emit
  | 0 => emitWith fun _ _ s => s
  | depth + 1 => emitWith (act (emit depth))

/-- Runs a step by itself and takes its events out of the journal. -/
def runTop (depth : Nat) (step : Step) (s : Session) : (Answer × List Event) × Session :=
  let (answer, s) := (runStep step).run (emit depth) s
  ((answer, s.journal), { s with journal := [] })

/-- Runs steps one after the other, scripts at most `depth` deep. -/
def runAll (depth : Nat) : List Step → Session → List (Answer × List Event) × Session
  | [], s => ([], s)
  | step :: rest, s =>
    let (result, s) := runTop depth step s
    let (results, s) := runAll depth rest s
    (result :: results, s)

/-- Runs the steps of a session. They cannot bring about more plays than counted, so no script
is left out. -/
def run (steps : List Step) (s : Session) : List (Answer × List Event) × Session :=
  runAll (Step.playsOf steps) steps s

end GroupedRows.Session
