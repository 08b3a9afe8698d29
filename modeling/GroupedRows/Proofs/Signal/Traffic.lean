import GroupedRows.Proofs.Signal.Actions

/-!
# Traffic on signals

Receivers run one at a time, and while one runs it may act on any signal and emit on it,
so emissions are nested like brackets. All that happens on some signals is one list of
happenings: actions, looks, beginnings and ends of emissions, and calls of receivers.
Which calls belong to which emission is read off the brackets alone, and so is whether an
emission has called those who were connected when it began.
-/

namespace GroupedRows.Signal

variable {ι α ν : Type}

/-- What happens on the signals of some lines. -/
inductive Happening (ι α ν : Type) where
  /-- Somebody does something to a signal. -/
  | acts (line : ι) (action : Action α)
  /-- Somebody looks at a signal. -/
  | looks (line : ι)
  /-- Somebody emits a value. -/
  | begins (line : ι) (value : ν)
  /-- A receiver is called with a value. -/
  | calls (receiver : α) (value : ν)
  /-- The emission that began last and is not over yet is over. -/
  | ends

/-! ## Reading a list of happenings -/

/-- The actions on one of the signals. -/
def actionsOn [DecidableEq ι] (line : ι) (happenings : List (Happening ι α ν)) : List (Action α) :=
  happenings.filterMap fun
    | .acts l action => if l = line then some action else none
    | _ => none

/-- What is done to a signal in one part and then in another. -/
theorem actionsOn_append [DecidableEq ι] (line : ι) (before after : List (Happening ι α ν)) :
    actionsOn line (before ++ after) = actionsOn line before ++ actionsOn line after :=
  List.filterMap_append

/-- The calls of an emission, read off what happens from its beginning on. The number tells how many
emissions have begun since and are not over: calls in between are calls of these. -/
def ownCalls : Nat → List (Happening ι α ν) → List (α × ν)
  | _, [] => []
  | inner, .acts _ _ :: rest => ownCalls inner rest
  | inner, .looks _ :: rest => ownCalls inner rest
  | inner, .begins _ _ :: rest => ownCalls (inner + 1) rest
  | 0, .calls a v :: rest => (a, v) :: ownCalls 0 rest
  | inner + 1, .calls _ _ :: rest => ownCalls (inner + 1) rest
  | 0, .ends :: _ => []
  | inner + 1, .ends :: rest => ownCalls inner rest

/-- Whether the emission has come to its end, read off in the same way. -/
def isOver : Nat → List (Happening ι α ν) → Bool
  | _, [] => false
  | inner, .acts _ _ :: rest => isOver inner rest
  | inner, .looks _ :: rest => isOver inner rest
  | inner, .begins _ _ :: rest => isOver (inner + 1) rest
  | inner, .calls _ _ :: rest => isOver inner rest
  | 0, .ends :: _ => true
  | inner + 1, .ends :: rest => isOver inner rest

/-- What happens after the end of an emission is none of its business. -/
theorem ownCalls_append_of_isOver {inner : Nat} {part : List (Happening ι α ν)}
    (h : isOver inner part = true) (rest : List (Happening ι α ν)) :
    isOver inner (part ++ rest) = true ∧ ownCalls inner (part ++ rest) = ownCalls inner part := by
  induction part generalizing inner with
  | nil => exact absurd h Bool.false_ne_true
  | cons happening part ih =>
    rw [List.cons_append]
    cases happening with
    | acts line action => exact ih h
    | looks line => exact ih h
    | begins line value => exact ih h
    | calls a value =>
      obtain ⟨hover, hcalls⟩ := ih h
      cases inner with
      | zero => exact ⟨hover, congrArg ((a, value) :: ·) hcalls⟩
      | succ inner => exact ⟨hover, hcalls⟩
    | ends =>
      cases inner with
      | zero => exact ⟨h, rfl⟩
      | succ inner => exact ih h

/-- A part of what happens during an emission, in which every emission that begins is over. To the
emission it amounts to the calls `own`; to one further out it amounts to nothing. -/
structure Amounts (part : List (Happening ι α ν)) (own : List (α × ν)) : Prop where
  ownCalls_zero : ∀ rest, ownCalls 0 (part ++ rest) = own ++ ownCalls 0 rest
  ownCalls_succ : ∀ inner rest, ownCalls (inner + 1) (part ++ rest) = ownCalls (inner + 1) rest
  isOver_eq : ∀ inner rest, isOver inner (part ++ rest) = isOver inner rest

namespace Amounts

variable {part more : List (Happening ι α ν)} {own others : List (α × ν)}

/-- Where nothing happens nobody is called. -/
theorem nil : Amounts ([] : List (Happening ι α ν)) [] :=
  ⟨fun _ => rfl, fun _ _ => rfl, fun _ _ => rfl⟩

/-- An action is no call. -/
theorem acts (line : ι) (action : Action α) :
    Amounts ([.acts line action] : List (Happening ι α ν)) [] :=
  ⟨fun _ => rfl, fun _ _ => rfl, fun _ _ => rfl⟩

/-- A look is no call. -/
theorem looks (line : ι) : Amounts ([.looks line] : List (Happening ι α ν)) [] :=
  ⟨fun _ => rfl, fun _ _ => rfl, fun _ _ => rfl⟩

/-- A call is one of the innermost emission. -/
theorem calls (a : α) (value : ν) :
    Amounts ([.calls a value] : List (Happening ι α ν)) [(a, value)] :=
  ⟨fun _ => rfl, fun _ _ => rfl, fun _ _ => rfl⟩

/-- Two parts amount to the calls of both. -/
theorem append (h : Amounts part own) (h' : Amounts more others) :
    Amounts (part ++ more) (own ++ others) where
  ownCalls_zero rest := by
    rw [List.append_assoc, h.ownCalls_zero, h'.ownCalls_zero, List.append_assoc]
  ownCalls_succ inner rest := by
    rw [List.append_assoc, h.ownCalls_succ, h'.ownCalls_succ]
  isOver_eq inner rest := by
    rw [List.append_assoc, h.isOver_eq, h'.isOver_eq]

/-- A whole emission amounts to nothing for those around it, whatever it has called. -/
theorem emission (h : Amounts part own) (line : ι) (value : ν) :
    Amounts (.begins line value :: (part ++ [.ends])) [] where
  ownCalls_zero rest := by
    have hpart := h.ownCalls_succ 0 (.ends :: rest)
    rw [List.cons_append, List.append_assoc]
    exact hpart
  ownCalls_succ inner rest := by
    have hpart := h.ownCalls_succ (inner + 1) (.ends :: rest)
    rw [List.cons_append, List.append_assoc]
    exact hpart
  isOver_eq inner rest := by
    have hpart := h.isOver_eq (inner + 1) (.ends :: rest)
    rw [List.cons_append, List.append_assoc]
    exact hpart

end Amounts

/-! ## Snapshots -/

variable [DecidableEq ι]

/-- Every emission in a list of happenings comes to its end and works on a snapshot: if its signal
lets it through when it begins, it calls exactly the receivers that are connected at this moment,
each connection once and with the value that is emitted; if the signal is blocked then, it calls
nobody. The signal at this moment is what all actions so far have made of it. -/
def OnSnapshots (signals : ι → Signal α) (happenings : List (Happening ι α ν)) : Prop :=
  ∀ before line value after, happenings = before ++ .begins line value :: after →
    let signal := (actionsOn line before).foldl perform (signals line)
    ∃ connected, signal.Lists connected ∧ isOver 0 after = true ∧
      ownCalls 0 after = if signal.blocked then [] else connected.map fun p => (p.2, value)

/-- Those whom an emission would call are the receivers of the connections, unless it is held
back. -/
theorem exists_lists_audience (s : Signal α) : ∃ connected, s.Lists connected ∧
    s.audience = if s.blocked then [] else connected.map Prod.snd := by
  refine ⟨s.table.entries, s.lists_entries, ?_⟩
  rw [audience, SlotTable.map_snd_entries]

namespace OnSnapshots

variable {signals : ι → Signal α} {part more : List (Happening ι α ν)}

/-- Where nothing happens there is no emission. -/
theorem nil (signals : ι → Signal α) : OnSnapshots signals ([] : List (Happening ι α ν)) := by
  intro before line value after h
  exact absurd h.symm (List.append_ne_nil_of_right_ne_nil _ (List.cons_ne_nil _ _))

/-- What is no beginning of an emission brings none about. -/
theorem single (signals : ι → Signal α) {happening : Happening ι α ν}
    (h : ∀ line value, happening ≠ .begins line value) : OnSnapshots signals [happening] := by
  intro before line value after hparts
  cases before with
  | nil => exact absurd (List.cons.inj hparts).1 (h line value)
  | cons first before =>
    have hnil : [] = before ++ .begins line value :: after := (List.cons.inj hparts).2
    exact absurd hnil.symm (List.append_ne_nil_of_right_ne_nil _ (List.cons_ne_nil _ _))

/-- A later part goes on with the signals that an earlier one leaves. -/
theorem append (h : OnSnapshots signals part)
    (h' : OnSnapshots (fun line => (actionsOn line part).foldl perform (signals line)) more) :
    OnSnapshots signals (part ++ more) := by
  intro before line value after hparts
  rcases List.append_eq_append_iff.1 hparts with ⟨before', rfl, hmore⟩ | ⟨after', rfl, hafter⟩
  · obtain ⟨connected, hlists, hover, hcalls⟩ := h' before' line value after hmore
    refine ⟨connected, ?_⟩
    rw [actionsOn_append, List.foldl_append]
    exact ⟨hlists, hover, hcalls⟩
  · cases after' with
    | nil =>
      obtain ⟨connected, hlists, hover, hcalls⟩ := h' [] line value after hafter.symm
      refine ⟨connected, ?_⟩
      rw [List.append_nil] at hlists hcalls
      exact ⟨hlists, hover, hcalls⟩
    | cons first after' =>
      obtain ⟨rfl, rfl⟩ := List.cons.inj hafter
      obtain ⟨connected, hlists, hover, hcalls⟩ := h before line value after' rfl
      obtain ⟨hover', hcalls'⟩ := ownCalls_append_of_isOver hover more
      exact ⟨connected, hlists, hover', hcalls'.trans hcalls⟩

/-- An emission that has called its audience works on a snapshot, and so do those inside it. -/
theorem emission (h : OnSnapshots signals part) (line : ι) (value : ν)
    (hcalls : Amounts part ((signals line).audience.map (·, value))) :
    OnSnapshots signals (.begins line value :: (part ++ [.ends])) := by
  have hinside : OnSnapshots signals (part ++ [.ends]) :=
    h.append (.single _ (by simp))
  intro before l v after hparts
  cases before with
  | nil =>
    obtain ⟨hbegins, rfl⟩ := List.cons.inj hparts
    obtain ⟨rfl, rfl⟩ := Happening.begins.inj hbegins
    obtain ⟨connected, hlists, haudience⟩ := exists_lists_audience (signals line)
    refine ⟨connected, hlists, hcalls.isOver_eq 0 _, ?_⟩
    have hown := hcalls.ownCalls_zero [.ends]
    have hend : ownCalls 0 ([.ends] : List (Happening ι α ν)) = [] := rfl
    rw [hown, hend, List.append_nil, haudience, apply_ite (List.map (·, value)), List.map_map]
    rfl
  | cons first before =>
    obtain ⟨rfl, hrest⟩ := List.cons.inj hparts
    exact hinside before l v after hrest

end OnSnapshots

end GroupedRows.Signal
