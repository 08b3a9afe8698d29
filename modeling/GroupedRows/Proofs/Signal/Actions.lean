import GroupedRows.Proofs.SlotEntries
import GroupedRows.Signal
import Mathlib.Data.List.Nodup

/-!
# Actions on a signal

Whoever holds a signal may connect to it, disconnect by an identifier, disconnect
everybody and block it. Whatever is done, the slot table stays sound and an identifier
that has been given away stays given away.
-/

namespace GroupedRows.Signal

variable {α : Type} {s : Signal α}

/-- What may be done to a signal between two of its emissions, or during one. -/
inductive Action (α : Type) where
  | connect (a : α)
  | disconnect (id : Option SlotId)
  | disconnectAll
  | block (on : Bool)

/-- The signal after an action. -/
def perform (s : Signal α) : Action α → Signal α
  | .connect a => (s.connect a).2
  | .disconnect id => (s.disconnect id).2
  | .disconnectAll => s.disconnectAll
  | .block on => s.setBlocked on

/-- `connected` names the connections of a signal, each once, with their receivers. -/
structure Lists (s : Signal α) (connected : List (SlotId × α)) : Prop where
  once : (connected.map Prod.fst).Nodup
  exact : ∀ id a, (id, a) ∈ connected ↔ s.table.get? id = some a

/-- The entries of the slot table list the connections. -/
theorem lists_entries (s : Signal α) : s.Lists s.table.entries :=
  ⟨s.table.nodup_map_fst_entries, fun _ _ => SlotTable.mem_entries⟩

/-- An emission that starts now calls the receivers of the entries, in their order. -/
theorem audience_eq_entries (h : s.blocked = false) :
    s.audience = s.table.entries.map Prod.snd := by
  rw [audience, h, SlotTable.map_snd_entries]
  rfl

/-- Two lists of the same connections hold the same receivers equally often. -/
theorem Lists.perm {l l' : List (SlotId × α)} (h : s.Lists l) (h' : s.Lists l') : l.Perm l' := by
  have hnodup : l.Nodup := h.once.of_map _
  have hnodup' : l'.Nodup := h'.once.of_map _
  refine (List.perm_ext_iff_of_nodup hnodup hnodup').2 ?_
  rintro ⟨id, a⟩
  rw [h.exact, h'.exact]

/-- Every connection is counted once. -/
theorem Lists.length_eq_count {l : List (SlotId × α)} (h : s.Lists l) : l.length = s.count := by
  rw [(h.perm s.lists_entries).length_eq, count, SlotTable.size, ← SlotTable.map_snd_entries,
    List.length_map]

/-- An emission that is let through calls the receiver of each connection once, whatever the calls
do. -/
theorem Lists.exists_deliver_eq_foldl {l : List (SlotId × α)} (h : s.Lists l)
    (hopen : s.blocked = false) :
    ∃ order : List (SlotId × α), order.Perm l ∧
      ∀ {σ : Type} (call : α → σ → σ) (state : σ),
        s.deliver call state = order.foldl (fun state p => call p.2 state) state := by
  refine ⟨s.table.entries, s.lists_entries.perm h, fun call state => ?_⟩
  rw [deliver, audience_eq_entries hopen, List.foldl_map]

/-- Whatever is done to a signal, its slot table stays sound. -/
theorem sound_perform (h : s.table.Sound) (action : Action α) : (s.perform action).table.Sound := by
  cases action with
  | connect a => exact h.insert a
  | disconnect id =>
    cases id with
    | none => exact h
    | some id => exact h.remove id
  | disconnectAll => exact h.clear
  | block on => exact h

/-- A whole history leaves the slot table sound. -/
theorem sound_foldl_perform (h : s.table.Sound) (history : List (Action α)) :
    (history.foldl perform s).table.Sound := by
  induction history generalizing s with
  | nil => exact h
  | cons action rest ih => exact ih (sound_perform h action)

/-- An identifier that has been given away stays given away. -/
theorem issued_perform (h : s.table.Sound) (action : Action α) {id : SlotId}
    (hid : s.table.Issued id) : (s.perform action).table.Issued id := by
  cases action with
  | connect a => exact h.issued_insert a hid
  | disconnect gone =>
    cases gone with
    | none => exact hid
    | some gone => exact hid.remove gone
  | disconnectAll => exact hid.clear
  | block on => exact hid

/-- An identifier that has been given away names what it named, or nothing any more. -/
theorem get?_perform_of_issued (h : s.table.Sound) {id : SlotId} (hid : s.table.Issued id)
    (action : Action α) :
    (s.perform action).table.get? id = s.table.get? id ∨
      (s.perform action).table.get? id = none := by
  cases action with
  | connect a => exact .inl ((h.get?_insert a id).trans (if_neg hid.ne_nextId))
  | disconnect gone =>
    cases gone with
    | none => exact .inl rfl
    | some gone =>
      have hget : (s.perform (.disconnect (some gone))).table.get? id
          = if id = gone then none else s.table.get? id := SlotTable.get?_remove _ _ _
      rw [hget]
      split
      · exact .inr rfl
      · exact .inl rfl
  | disconnectAll => exact .inr (SlotTable.get?_clear _ _)
  | block on => exact .inl rfl

/-- Whatever happens, an identifier that has been given away never names another receiver. -/
theorem get?_foldl_perform_of_issued (h : s.table.Sound) {id : SlotId} (hid : s.table.Issued id)
    (history : List (Action α)) :
    (history.foldl perform s).table.get? id = s.table.get? id ∨
      (history.foldl perform s).table.get? id = none := by
  induction history generalizing s with
  | nil => exact .inl rfl
  | cons action rest ih =>
    have hrest := ih (sound_perform h action) (issued_perform h action hid)
    rcases get?_perform_of_issued h hid action with hkept | hgone
    · rwa [hkept] at hrest
    · rw [hgone, or_self] at hrest
      exact .inr hrest

end GroupedRows.Signal
