import GroupedRows.SlotTable

/-!
# Signals

A signal keeps its receivers in a slot table. An emission works on the receivers
that are connected when it starts: whatever they do to the signal while they run
takes effect from the next emission on. A blocked signal reaches nobody.
-/

namespace GroupedRows

/-- Connected receivers and whether emissions are held back. -/
structure Signal (α : Type) where
  table : SlotTable α
  blocked : Bool
  deriving Repr

namespace Signal

variable {α σ : Type}

/-- A signal without receivers. -/
def empty : Signal α := ⟨.empty, false⟩

/-- Connects a receiver. -/
def connect (s : Signal α) (a : α) : SlotId × Signal α :=
  (s.table.nextId, { s with table := s.table.insert a })

/-- Disconnects the receiver that the identifier names and tells whether there was one;
without an identifier there is none. -/
def disconnect (s : Signal α) : Option SlotId → Bool × Signal α
  | none => (false, s)
  | some id => ((s.table.get? id).isSome, { s with table := s.table.remove id })

/-- Disconnects every receiver. -/
def disconnectAll (s : Signal α) : Signal α := { s with table := s.table.clear }

/-- Number of connected receivers. -/
def count (s : Signal α) : Nat := s.table.size

/-- Holds emissions back, or lets them through again. -/
def setBlocked (s : Signal α) (on : Bool) : Signal α := { s with blocked := on }

/-- The receivers of an emission that starts now, in the order in which they are called. -/
def audience (s : Signal α) : List α := if s.blocked then [] else s.table.values

/-- Calls every receiver of an emission that starts now. The audience is fixed before
the first call, whatever `call` does to the signal inside the state. -/
def deliver (s : Signal α) (call : α → σ → σ) (state : σ) : σ :=
  s.audience.foldl (fun state a => call a state) state

/-- What every call keeps, the whole delivery keeps. -/
theorem deliver_preserves {s : Signal α} {call : α → σ → σ} {P : σ → Prop}
    (h : ∀ a ∈ s.audience, ∀ state, P state → P (call a state)) {state : σ} (hs : P state) :
    P (s.deliver call state) := by
  unfold deliver
  revert h hs
  generalize s.audience = receivers
  intro h hs
  induction receivers generalizing state with
  | nil => exact hs
  | cons a rest ih =>
    exact ih (fun b hb => h b (List.mem_cons_of_mem _ hb)) (h a List.mem_cons_self state hs)

end Signal

end GroupedRows
