import GroupedRows.Proofs.Signal.Traffic
import GroupedRows.Switchboard

/-!
# Scenes on a switchboard

A scene is a switchboard in the middle of its emissions: for each of them, innermost
first, it has what the handler that is being called still has to play. Scripts are played
to the letter, step by step, and an emission begins where a script says so and nowhere
else. Only whom an emission calls, with what, and when it is over is left open here, so
that it can be asked of the emissions that run.
-/

namespace GroupedRows.Switchboard

open Signal

/-- A switchboard and the emissions under way on it, innermost first: the steps that are left of the
script being played, each with the name of its handler. None are left while nobody is called. -/
structure Scene where
  board : Switchboard
  underWay : List (List (String × Step))

/-- The records with which an emission on a line starts. -/
def announce (line : Line) (b : Switchboard) : Switchboard :=
  b.write [.enter .emission, .entry
    (if (b.signal line).blocked then .emissionBlocked else .emitting (b.signal line).count)]

/-- The record with which an emission ends. -/
def finish (b : Switchboard) : Switchboard := b.write [.leave .emission]

/-- What a step of a script is on the signals. -/
def Step.happening (b : Switchboard) : Step → Happening Line Nat Int
  | .connect line _ _ _ => .acts line (.connect b.handlers.length)
  | .disconnect line name => .acts line (.disconnect (b.names.get? name))
  | .disconnectAll line => .acts line .disconnectAll
  | .count line | .isBlocked line => .looks line
  | .block line on => .acts line (.block on)
  | .emit line value => .begins line value

/-- One happening. The step that comes next in a script is made and its answer noted; if it is an
emission, it has been made when the emission is over. While nobody is being called, anybody may be
called with any value, and the emission may end: a handler that is called notes it, and plays its
script if it has a play left. After the last emission nothing happens any more. -/
inductive Goes : Scene → Happening Line Nat Int → Scene → Prop where
  | steps (emit : Line → Int → Switchboard → Switchboard) (b : Switchboard) (name : String)
      (step : Step) (rest : List (String × Step)) (outer : List (List (String × Step))) :
      (∀ line value, step ≠ .emit line value) →
      Goes ⟨b, ((name, step) :: rest) :: outer⟩ (step.happening b)
        ⟨(runStep emit step b).2.note (.acted name step (runStep emit step b).1), rest :: outer⟩
  | begins (b : Switchboard) (name : String) (line : Line) (value : Int)
      (rest : List (String × Step)) (outer : List (List (String × Step))) :
      Goes ⟨b, ((name, .emit line value) :: rest) :: outer⟩ (.begins line value)
        ⟨b.announce line, [] :: ((name, .emit line value) :: rest) :: outer⟩
  | misses (b : Switchboard) (n : Nat) (value : Int) (outer : List (List (String × Step))) :
      b.handlers[n]? = none → Goes ⟨b, [] :: outer⟩ (.calls n value) ⟨b, [] :: outer⟩
  | hears (b : Switchboard) (n : Nat) (value : Int) (h : Handler)
      (outer : List (List (String × Step))) :
      b.handlers[n]? = some h → h.script = [] ∨ h.left = 0 →
      Goes ⟨b, [] :: outer⟩ (.calls n value) ⟨b.note (.received h.name value), [] :: outer⟩
  | plays (b : Switchboard) (n : Nat) (value : Int) (h : Handler)
      (outer : List (List (String × Step))) :
      b.handlers[n]? = some h → h.script ≠ [] → 0 < h.left →
      Goes ⟨b, [] :: outer⟩ (.calls n value)
        ⟨{ b.note (.received h.name value) with
            handlers := b.handlers.set n { h with left := h.left - 1 } },
          h.script.map (h.name, ·) :: outer⟩
  | returns (b : Switchboard) (name : String) (step : Step) (rest : List (String × Step))
      (outer : List (List (String × Step))) :
      Goes ⟨b, [] :: ((name, step) :: rest) :: outer⟩ .ends
        ⟨b.finish.note (.acted name step .done), rest :: outer⟩
  | ends (b : Switchboard) : Goes ⟨b, [[]]⟩ .ends ⟨b.finish, []⟩

/-- Any number of happenings, one after the other. -/
inductive Runs : Scene → List (Happening Line Nat Int) → Scene → Prop where
  | nil (t : Scene) : Runs t [] t
  | cons {t t' t'' : Scene} {h : Happening Line Nat Int}
      {rest : List (Happening Line Nat Int)} :
      Goes t h t' → Runs t' rest t'' → Runs t (h :: rest) t''

/-! ## What happens to the signals -/

/-- Records are no actions. -/
theorem signal_announce (line : Line) (b : Switchboard) : (b.announce line).signal = b.signal := by
  ext1 l
  cases l <;> rfl

/-- Replacing the signal of a line replaces no other. -/
theorem signal_setSignal (b : Switchboard) (line : Line) (signal : Signal Nat) (l : Line) :
    (b.setSignal line signal).signal l = if line = l then signal else b.signal l := by
  cases line <;> cases l <;> rfl

/-- A step that is no emission does to the signals what it is said to do. -/
theorem signal_runStep {emit : Line → Int → Switchboard → Switchboard} (b : Switchboard)
    {step : Step} (hstep : ∀ line value, step ≠ .emit line value) (l : Line) :
    (runStep emit step b).2.signal l =
      (actionsOn l [step.happening b]).foldl perform (b.signal l) := by
  have hacts : ∀ (line : Line) (action : Action Nat),
      (b.setSignal line ((b.signal line).perform action)).signal l =
        (actionsOn l [(.acts line action : Happening Line Nat Int)]).foldl perform
          (b.signal l) := by
    intro line action
    rw [signal_setSignal]
    by_cases hl : line = l
    · subst hl
      simp [actionsOn]
    · simp [actionsOn, hl]
  cases step with
  | connect line name script times => exact hacts line (.connect b.handlers.length)
  | disconnect line name => exact hacts line (.disconnect (b.names.get? name))
  | disconnectAll line => exact hacts line .disconnectAll
  | block line on => exact hacts line (.block on)
  | count line => rfl
  | isBlocked line => rfl
  | emit line value => exact absurd rfl (hstep line value)

/-- Nothing but the actions on a signal changes it. -/
theorem Goes.signal_eq {t t' : Scene} {h : Happening Line Nat Int} (hgoes : Goes t h t')
    (line : Line) :
    t'.board.signal line = (actionsOn line [h]).foldl perform (t.board.signal line) := by
  cases hgoes with
  | steps emit b name step rest outer hstep => exact signal_runStep b hstep line
  | begins | misses | hears | plays | returns | ends => cases line <;> rfl

namespace Runs

variable {t t' t'' : Scene} {before after : List (Happening Line Nat Int)}

/-- Two runs, one after the other. -/
theorem append (h : Runs t before t') (h' : Runs t' after t'') : Runs t (before ++ after) t'' := by
  induction h with
  | nil t => exact h'
  | cons hgoes _ ih => exact .cons hgoes (ih h')

/-- A single happening. -/
theorem one {h : Happening Line Nat Int} (hgoes : Goes t h t') : Runs t [h] t' :=
  .cons hgoes (.nil t')

/-- At any moment a signal is what all actions so far have made of it. -/
theorem signal_eq (h : Runs t before t') (line : Line) :
    t'.board.signal line = (actionsOn line before).foldl perform (t.board.signal line) := by
  induction h with
  | nil t => rfl
  | @cons t t' t'' happening rest hgoes _ ih =>
    have hactions : actionsOn line (happening :: rest) =
        actionsOn line [happening] ++ actionsOn line rest :=
      actionsOn_append line [happening] rest
    rw [ih, hgoes.signal_eq line, hactions, List.foldl_append]

end Runs

end GroupedRows.Switchboard
