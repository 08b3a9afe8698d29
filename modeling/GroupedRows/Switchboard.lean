import GroupedRows.Log.Record
import GroupedRows.OrderedMap
import GroupedRows.Signal

/-!
# Switchboards

A switchboard has two signals that carry integers, and named handlers. A handler notes
each call; as long as plays are left it then plays its script, whose steps may connect,
disconnect, block and emit on either signal while the emission is under way.
-/

namespace GroupedRows

namespace Switchboard

/-- One of the two signals. -/
inductive Line where
  | first
  | second
  deriving DecidableEq, Repr

/-- A step on a switchboard. -/
inductive Step where
  | connect (line : Line) (name : String) (script : List Step) (times : Nat)
  | disconnect (line : Line) (name : String)
  | disconnectAll (line : Line)
  | count (line : Line)
  | block (line : Line) (on : Bool)
  | isBlocked (line : Line)
  | emit (line : Line) (value : Int)

/-- The answer to a step. -/
inductive Answer where
  | done
  | flag (b : Bool)
  | count (n : Nat)
  deriving DecidableEq, Repr

/-- What is noted of the handlers. -/
inductive Call where
  /-- A handler was called with a value. -/
  | received (handler : String) (value : Int)
  /-- A step of a handler's script has been answered. -/
  | acted (handler : String) (step : Step) (answer : Answer)

mutual

/-- How many plays of scripts one step can bring about. -/
def Step.plays : Step → Nat
  | .connect _ _ script times => times * (1 + Step.playsOf script)
  | _ => 0

/-- How many plays of scripts a list of steps can bring about. -/
def Step.playsOf : List Step → Nat
  | [] => 0
  | s :: rest => s.plays + Step.playsOf rest

end

/-- A script that is played on each of the next `left` calls. -/
structure Handler where
  name : String
  script : List Step
  left : Nat

end Switchboard

open Switchboard in
/-- Two signals whose receivers are numbers of handlers, and the connection made last under each
name. -/
structure Switchboard where
  first : Signal Nat
  second : Signal Nat
  handlers : List Handler
  names : OrderedMap String SlotId
  calls : List Call
  log : List LogRecord

namespace Switchboard

/-- Nobody is connected. -/
def start : Switchboard := ⟨.empty, .empty, [], .empty, [], []⟩

/-- The signal of a line. -/
def signal (s : Switchboard) : Line → Signal Nat
  | .first => s.first
  | .second => s.second

/-- Replaces the signal of a line. -/
def setSignal (s : Switchboard) (line : Line) (signal : Signal Nat) : Switchboard :=
  match line with
  | .first => { s with first := signal }
  | .second => { s with second := signal }

/-- Notes a call. -/
def note (s : Switchboard) (c : Call) : Switchboard := { s with calls := s.calls ++ [c] }

/-- Logs records. -/
def write (s : Switchboard) (records : List LogRecord) : Switchboard :=
  { s with log := s.log ++ records }

/-- Sends a value to the handlers that are connected at this moment; `call` says what each does. -/
def emitWith (call : Nat → Int → Switchboard → Switchboard) (line : Line) (value : Int)
    (s : Switchboard) : Switchboard :=
  let signal := s.signal line
  let announced := if signal.blocked then .emissionBlocked else .emitting signal.count
  let s := s.write [.enter .emission, .entry announced]
  (signal.deliver (fun number s => call number value s) s).write [.leave .emission]

/-- Connects a new handler and keeps the connection under its name. -/
def connect (line : Line) (name : String) (script : List Step) (times : Nat) (s : Switchboard) :
    Switchboard :=
  let (id, signal) := (s.signal line).connect s.handlers.length
  { s.setSignal line signal with
    handlers := s.handlers ++ [⟨name, script, times⟩]
    names := s.names.insert name id }

/-- Runs one step; `emit` says what an emission brings about. -/
def runStep (emit : Line → Int → Switchboard → Switchboard) (step : Step) (s : Switchboard) :
    Answer × Switchboard :=
  match step with
  | .connect line name script times => (.done, connect line name script times s)
  | .disconnect line name =>
    let (found, signal) := (s.signal line).disconnect (s.names.get? name)
    (.flag found, s.setSignal line signal)
  | .disconnectAll line => (.done, s.setSignal line (s.signal line).disconnectAll)
  | .count line => (.count (s.signal line).count, s)
  | .block line on => (.done, s.setSignal line ((s.signal line).setBlocked on))
  | .isBlocked line => (.flag (s.signal line).blocked, s)
  | .emit line value => (.done, emit line value s)

/-- Plays a script and notes the answer to each step. -/
def play (emit : Line → Int → Switchboard → Switchboard) (name : String) (script : List Step)
    (s : Switchboard) : Switchboard :=
  script.foldl (fun s step =>
    let (answer, s) := runStep emit step s
    s.note (.acted name step answer)) s

/-- A call of a handler. An empty script uses up no play. -/
def call (emit : Line → Int → Switchboard → Switchboard) (number : Nat) (value : Int)
    (s : Switchboard) : Switchboard :=
  match s.handlers[number]? with
  | none => s
  | some h =>
    let s := s.note (.received h.name value)
    if h.script.isEmpty ∨ h.left = 0 then s
    else
      let s := { s with handlers := s.handlers.set number { h with left := h.left - 1 } }
      play emit h.name h.script s

/-- What a call does when no play is left anywhere: it is only noted. -/
def noteOnly (number : Nat) (value : Int) (s : Switchboard) : Switchboard :=
  match s.handlers[number]? with
  | none => s
  | some h => s.note (.received h.name value)

/-- Emission in which scripts are played at most `depth` deep. -/
def emit : Nat → Line → Int → Switchboard → Switchboard
  | 0 => emitWith noteOnly
  | depth + 1 => emitWith (call (emit depth))

/-- Runs steps one after the other, scripts at most `depth` deep, and takes the calls of each. -/
def runAll (depth : Nat) : List Step → Switchboard → List (Answer × List Call) × Switchboard
  | [], s => ([], s)
  | step :: rest, s =>
    let (answer, s) := runStep (emit depth) step s
    let (results, later) := runAll depth rest { s with calls := [] }
    ((answer, s.calls) :: results, later)

/-- Runs the steps of a fresh switchboard. They cannot bring about more plays than counted, so no
script is left out. -/
def run (steps : List Step) : List (Answer × List Call) × Switchboard :=
  runAll (Step.playsOf steps) steps start

end Switchboard

end GroupedRows
