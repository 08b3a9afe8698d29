import Mathlib.Logic.Relation
import GroupedRows.Session.Run

/-!
# Moments of a session

Between calls, code outside has control: at first the code that uses the session, and a
listener while it is called. Any call may send a notice, and then waits until all its
receivers have been called, so calls of listeners nest to any depth. A moment is a
session together with the calls that wait, and moves lead from one moment to the next.
Running scripts of listeners is one way to move.
-/

namespace GroupedRows

/-- Whether the receiver is code outside, which may act. -/
def Receiver.isListener : Receiver → Bool
  | .listener _ => true
  | _ => false

/-- A call waits for the receivers of its notice. -/
structure Waiting where
  notice : Notice
  /-- Receivers that have not been called yet. -/
  pending : List Receiver
  /-- The receiver called last is a listener. -/
  listening : Bool
  rest : Session → Course Answer

/-- A session and the calls that wait, innermost first. -/
structure Moment where
  session : Session
  waiting : List Waiting

/-- Notices that are under way, innermost first, with the receivers that have not been called. -/
abbrev UnderWay := List (Notice × List Receiver)

/-- A receiver is called. What a listener does then is another matter. -/
def Session.receive (n : Notice) (r : Receiver) (s : Session) : Session :=
  s.call (fun _ _ s => s) n r

namespace Moment

/-- While these calls wait, code outside has control: none waits or a listener is called. -/
def IsFree (waiting : List Waiting) : Prop := ∀ w ∈ waiting.head?, w.listening = true

/-- The notices under way while calls wait, with the receivers that have not been called. -/
def underWay (waiting : List Waiting) : UnderWay := waiting.map fun w => (w.notice, w.pending)

/-- A course that goes on while calls wait ends or sends a notice and waits too. -/
def goOn (waiting : List Waiting) : Course Answer → Moment
  | .ended _ s => ⟨s, waiting⟩
  | .sends n s rest =>
    ⟨s.beginEmission n, ⟨n, (s.signal n.channel).audience, false, rest⟩ :: waiting⟩

/-- From one moment to the next. Which calls code outside may make is a parameter. -/
inductive Moves (allowed : Session → Step → Prop) : Moment → Moment → Prop where
  /-- Code outside makes a call. -/
  | call (m : Moment) (step : Step) : IsFree m.waiting → allowed m.session step →
      Moves allowed m (goOn m.waiting ((Session.runStep step).start m.session))
  /-- Code outside takes notes. -/
  | note (m : Moment) (listeners : List Listener) (names : OrderedMap String SlotId)
      (held : OrderedMap String Snapshot) (journal : List Event) : IsFree m.waiting →
      Moves allowed m ⟨{ m.session with listeners, names, held, journal }, m.waiting⟩
  /-- The next receiver is called. -/
  | receive (s : Session) (n : Notice) (r : Receiver) (pending : List Receiver) (l : Bool)
      (rest : Session → Course Answer) (waiting : List Waiting) :
      Moves allowed ⟨s, ⟨n, r :: pending, l, rest⟩ :: waiting⟩
        ⟨s.receive n r, ⟨n, pending, r.isListener, rest⟩ :: waiting⟩
  /-- All receivers have been called, and the call goes on. -/
  | goOn (s : Session) (n : Notice) (l : Bool) (rest : Session → Course Answer)
      (waiting : List Waiting) :
      Moves allowed ⟨s, ⟨n, [], l, rest⟩ :: waiting⟩ (goOn waiting (rest s.endEmission))

/-- What any number of moves leads to. -/
abbrev Reaches (allowed : Session → Step → Prop) : Moment → Moment → Prop :=
  Relation.ReflTransGen (Moves allowed)

end Moment

end GroupedRows
