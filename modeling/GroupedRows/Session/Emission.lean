import GroupedRows.Session.Course

/-!
# Emissions of a session

Every notice goes out on its signal. The journal notes it, tables become stale, and
listeners may act, which can change the session in any way before the next receiver
is called. What listeners do is a parameter here.
-/

namespace GroupedRows.Session

/-- Records of a table that hears a notice of its source. -/
def hearLog : Notice → List LogRecord
  | .items change => [.entry (.tableHeardItems change)]
  | .binding state => [.entry (.tableHeardBinding state)]
  | _ => []

/-- Marks a table as stale. -/
def markStale (s : Session) (c : TableId) : Session :=
  s.modifyTable c fun t => { t with stale := true }

/-- Calls one receiver; `act` says what a listener does. -/
def call (act : Nat → Emit) (n : Notice) (r : Receiver) (s : Session) : Session :=
  match r with
  | .journal => s.note (.noted n)
  | .table c => (s.write (hearLog n)).markStale c
  | .listener number => act number n s

/-- An emission begins: it reaches the receivers of the signal, unless it is held back. -/
def beginEmission (s : Session) (n : Notice) : Session :=
  let signal := s.signal n.channel
  s.write [.enter .emission,
    .entry (if signal.blocked then .emissionBlocked else .emitting signal.count)]

/-- An emission is over. -/
def endEmission (s : Session) : Session := s.write [.leave .emission]

/-- Sends a notice to the receivers that are connected at this moment. -/
def emitWith (act : Nat → Emit) : Emit := fun n s =>
  ((s.signal n.channel).deliver (call act n) (s.beginEmission n)).endEmission

end GroupedRows.Session
