import GroupedRows.Proofs.Signal.Actions
import GroupedRows.Switchboard

/-!
# Order of the calls

Receivers are called in the order of their slots. A connection that takes a slot of its
own stands behind all earlier ones; one that takes over a freed slot stands where that
slot is, which may be in front of connections made before it.
-/

namespace GroupedRows.Signal

variable {α : Type}

/-- A new slot lies behind that of every connection; a slot freed earlier lies behind those with
a lower number. -/
theorem slot_lt_nextId_iff {t : SlotTable α} {i : SlotId} {a : α}
    (hi : t.get? i = some a) :
    i.slot < t.nextId.slot ↔ ∀ n ∈ t.free.head?, i.slot < n := by
  have hlt : i.slot < t.slots.length :=
    (List.getElem?_eq_some_iff.1 (SlotTable.get?_eq_some_iff.1 hi)).1
  unfold SlotTable.nextId SlotTable.nextSlot
  cases t.free with
  | nil => simpa using hlt
  | cons n rest => simp

/-- A new connection comes before an earlier one only in a freed slot with a lower number. -/
theorem nextId_slot_lt_iff {t : SlotTable α} {i : SlotId} {a : α}
    (hi : t.get? i = some a) :
    t.nextId.slot < i.slot ↔ ∃ n ∈ t.free.head?, n < i.slot := by
  have hlt : i.slot < t.slots.length :=
    (List.getElem?_eq_some_iff.1 (SlotTable.get?_eq_some_iff.1 hi)).1
  unfold SlotTable.nextId SlotTable.nextSlot
  cases t.free with
  | nil => simpa using Nat.le_of_lt hlt
  | cons n rest => simp

/-- After every history, and whatever happens after a receiver `b` has connected while `a` was
connected: as long as both connections are there, an emission that is let through calls `a` before
`b` exactly if `b` got a new slot or took over a freed one that lies behind the slot of `a`. If `b`
took over a slot in front of it, then `b` is called first. Both identifiers have been given away
when `b` has connected, so in the end they name what they named then. -/
theorem earlier_called_first_iff {before later : List (Action α)} {s₁ s₂ : Signal α} {a b : α}
    {i : SlotId} (hs₁ : before.foldl perform .empty = s₁) (hi : s₁.table.get? i = some a)
    (hs₂ : later.foldl perform (s₁.connect b).2 = s₂) (hi₂ : (s₂.table.get? i).isSome)
    (hj₂ : (s₂.table.get? (s₁.connect b).1).isSome) (hopen : s₂.blocked = false) :
    ∃ called, s₂.Lists called ∧ s₂.audience = called.map Prod.snd ∧
      ([(i, a), ((s₁.connect b).1, b)].Sublist called ↔ ∀ n ∈ s₁.table.free.head?, i.slot < n) ∧
      ([((s₁.connect b).1, b), (i, a)].Sublist called ↔ ∃ n ∈ s₁.table.free.head?, n < i.slot) := by
  have hsound : s₁.table.Sound := hs₁ ▸ sound_foldl_perform SlotTable.sound_empty before
  have hsound' : (s₁.connect b).2.table.Sound := hsound.insert b
  have hkept : ∀ {id : SlotId} {c : α}, (s₁.connect b).2.table.get? id = some c →
      (s₂.table.get? id).isSome → s₂.table.get? id = some c := by
    intro id c hid hsome
    have hcases := get?_foldl_perform_of_issued hsound' (SlotTable.issued_of_get? hid) later
    rw [hs₂, hid] at hcases
    refine hcases.resolve_right fun hnone => ?_
    rw [hnone] at hsome
    exact Bool.noConfusion hsome
  have ha : s₂.table.get? i = some a := by
    refine hkept ((hsound.get?_insert b i).trans ?_) hi₂
    rw [if_neg (SlotTable.issued_of_get? hi).ne_nextId, hi]
  have hb : s₂.table.get? (s₁.connect b).1 = some b :=
    hkept ((hsound.get?_insert b _).trans (if_pos rfl)) hj₂
  refine ⟨s₂.table.entries, s₂.lists_entries, audience_eq_entries hopen, ?_, ?_⟩
  · exact (SlotTable.pair_sublist_entries ha hb).trans (slot_lt_nextId_iff hi)
  · exact (SlotTable.pair_sublist_entries hb ha).trans (nextId_slot_lt_iff hi)

/-- Three receivers connect, the first one leaves in between: the last one takes over its slot. -/
def takeover : List (Action String) :=
  [.connect "a", .connect "b", .disconnect (some ⟨0, 1⟩)]

/-- With "a" gone, "c" takes over its slot and is called before "b", which connected earlier. -/
theorem newcomer_called_before_b :
    ∃ called, ((takeover.foldl perform .empty).connect "c").2.Lists called ∧
      [((⟨0, 3⟩ : SlotId), "c"), (⟨1, 1⟩, "b")].Sublist called := by
  have hb : (takeover.foldl perform .empty).table.get? ⟨1, 1⟩ = some "b" := rfl
  have hlater : ([] : List (Action String)).foldl perform
      ((takeover.foldl perform .empty).connect "c").2 =
        ((takeover.foldl perform .empty).connect "c").2 := rfl
  obtain ⟨called, hlists, -, -, hfirst⟩ :=
    earlier_called_first_iff rfl hb hlater rfl rfl rfl
  exact ⟨called, hlists, hfirst.2 ⟨0, rfl, by decide⟩⟩

open Switchboard in
/-- Connection order is broken: of "b" and "c", the one that connected later is called first, by the
signal as by a whole run with named handlers. -/
theorem calls_against_connection_order :
    (takeover.foldl perform .empty).table.get? ⟨1, 1⟩ = some "b" ∧
      (takeover.foldl perform .empty).audience = ["b"] ∧
      ((takeover.foldl perform .empty).connect "c").2.audience = ["c", "b"] ∧
      (runAll 0 [.connect .first "a" [] 0, .connect .first "b" [] 0, .disconnect .first "a",
        .connect .first "c" [] 0, .emit .first 1] start).1.map Prod.snd =
          [[], [], [], [], [.received "c" 1, .received "b" 1]] :=
  ⟨rfl, rfl, rfl, rfl⟩

end GroupedRows.Signal
