import GroupedRows.Session.Run

/-!
# Emissions to quiet listeners

Where no listener has a script to play, an emission leaves the source as it is, and of
the tables it makes those stale that are among its receivers.
-/

namespace GroupedRows

/-- The entry with its table stale. -/
def TableEntry.stale (e : TableEntry) : TableEntry :=
  { e with table := { e.table with stale := true } }

/-- The notice that an event notes. -/
def Event.noted? : Event → Option Notice
  | .noted n => some n
  | .heard _ _ | .acted _ _ _ => none

namespace Session

/-- No listener does anything. -/
def Quiet (s : Session) : Prop := ∀ l ∈ s.listeners, l.script = []

/-- The notices that the journal has noted in the present step. -/
def notices (s : Session) : List Notice := s.journal.filterMap Event.noted?

/-- What is left after receivers have been called: tables among them are stale, and the journal, if
it is among them, has noted the notice. -/
structure Heard (n : Notice) (receivers : List Receiver) (s s' : Session) : Prop where
  quiet : s'.Quiet
  source : s'.source = s.source
  tables : ∀ c, s'.tables[c]? =
    s.tables[c]?.map fun e => if .table c ∈ receivers then e.stale else e
  names : s'.names = s.names
  listeners : s'.listeners.map Listener.name = s.listeners.map Listener.name
  notices : s'.notices = s.notices ++ List.replicate (receivers.count .journal) n

variable {n : Notice} {s s' s'' : Session} {receivers rest : List Receiver}

/-- Where nobody is called, nobody hears. -/
theorem heard_nil (h : s.Quiet) : Heard n [] s s := by
  refine ⟨h, rfl, fun c => ?_, rfl, rfl, (List.append_nil _).symm⟩
  simp only [List.not_mem_nil, if_false, Option.map_id']

/-- Receivers that are called in two groups have heard as one. -/
theorem Heard.append (h : Heard n receivers s s') (h' : Heard n rest s' s'') :
    Heard n (receivers ++ rest) s s'' where
  quiet := h'.quiet
  source := h'.source.trans h.source
  tables c := by
    rw [h'.tables, h.tables, Option.map_map]
    congr 1
    funext e
    simp only [Function.comp_apply, List.mem_append, TableEntry.stale]
    by_cases hr : Receiver.table c ∈ receivers <;> by_cases hr' : Receiver.table c ∈ rest <;>
      simp [hr, hr']
  names := h'.names.trans h.names
  listeners := h'.listeners.trans h.listeners
  notices := by
    rw [h'.notices, h.notices, List.append_assoc, List.count_append,
      List.replicate_append_replicate]

/-- Where no table is called, all tables stay as they are. -/
theorem Heard.tables_eq (h : Heard n receivers s s') (hdeaf : ∀ c, .table c ∉ receivers) :
    s'.tables = s.tables := by
  refine List.ext_getElem? fun c => ?_
  rw [h.tables]
  simp [hdeaf c]

/-- A quiet listener counts its call and does nothing else. -/
theorem heard_act (emit : Emit) (number : Nat) (h : s.Quiet) :
    Heard n [] s (act emit number n s) := by
  unfold act
  split
  · exact heard_nil h
  · rename_i l hl
    split
    · exact heard_nil h
    · have hmem := List.mem_of_getElem? hl
      rw [h l hmem]
      refine ⟨fun l' hl' => ?_, rfl, (heard_nil (n := n) h).tables, rfl, ?_, ?_⟩
      · rcases List.mem_or_eq_of_mem_set hl' with hl' | rfl
        · exact h l' hl'
        · rfl
      · obtain ⟨hlt, rfl⟩ := List.getElem?_eq_some_iff.1 hl
        have hlt' : number < (s.listeners.map Listener.name).length := by simpa using hlt
        have hname : s.listeners[number].name = (s.listeners.map Listener.name)[number] := by simp
        change (s.listeners.set number _).map Listener.name = _
        rw [List.map_set]
        dsimp only
        rw [hname, List.set_getElem_self]
      · change (s.journal ++ [Event.heard l.name n]).filterMap Event.noted? = _
        rw [List.filterMap_append]
        rfl

/-- Of all receivers only a table is changed by its call. -/
theorem heard_call {act : Nat → Emit}
    (hact : ∀ number {s : Session}, s.Quiet → Heard n [] s (act number n s)) (r : Receiver)
    (h : s.Quiet) : Heard n [r] s (call act n r s) := by
  cases r with
  | journal =>
    refine ⟨h, rfl, fun c => by simp [call, note], rfl, rfl, ?_⟩
    change (s.journal ++ [Event.noted n]).filterMap Event.noted? = _
    rw [List.filterMap_append]
    rfl
  | listener number =>
    have ha := hact number h
    exact ⟨ha.quiet, ha.source, fun c => by simpa [call] using ha.tables c, ha.names, ha.listeners,
      ha.notices⟩
  | table d =>
    refine ⟨h, rfl, fun c => ?_, rfl, rfl, (List.append_nil _).symm⟩
    change (s.tables.modify d TableEntry.stale)[c]? = _
    rw [List.getElem?_modify]
    by_cases hc : d = c
    · subst hc
      simp
    · simp [hc, Ne.symm hc]

/-- Where those who act are heard by nobody, an emission is heard by its audience. -/
theorem heard_emitWith {act : Nat → Emit}
    (hact : ∀ number {s : Session}, s.Quiet → Heard n [] s (act number n s)) (h : s.Quiet) :
    Heard n (s.signal n.channel).audience s (emitWith act n s) := by
  have hfold : ∀ (receivers : List Receiver) (s : Session), s.Quiet →
      Heard n receivers s (receivers.foldl (fun s r => call act n r s) s) := by
    intro receivers
    induction receivers with
    | nil => exact fun s h => heard_nil h
    | cons r rest ih =>
      intro s h
      have hr := heard_call hact r h
      exact hr.append (ih _ hr.quiet)
  have hall := hfold (s.signal n.channel).audience (s.beginEmission n) h
  exact ⟨hall.quiet, hall.source, hall.tables, hall.names, hall.listeners, hall.notices⟩

/-- An emission to quiet listeners makes the tables among its receivers stale. -/
theorem heard_emit (depth : Nat) (n : Notice) (h : s.Quiet) :
    Heard n (s.signal n.channel).audience s (emit depth n s) := by
  cases depth with
  | zero => exact heard_emitWith (fun _ _ h => heard_nil h) h
  | succ depth => exact heard_emitWith (fun number _ h => heard_act (emit depth) number h) h

end Session

end GroupedRows
