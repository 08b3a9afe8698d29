import GroupedRows.Proofs.Signal.Actions

/-!
# Registers of connections

A register notes for every connection ever made the identifier that was answered and,
as long as nobody has given the connection up, its receiver. It is kept without looking
at slots. Whatever the parties do, the signal behaves as its register says.
-/

namespace GroupedRows.Signal

variable {α : Type}

/-- A signal and what has been noted of its connections, in the order in which they were made. -/
structure Usage (α : Type) where
  signal : Signal α
  register : List (SlotId × Option α)

namespace Usage

variable {u : Usage α}

/-- A signal that nobody has connected to yet. -/
def fresh : Usage α := ⟨.empty, []⟩

/-- What is noted of an action: a connection is made, one is given up, or all are. -/
def note (u : Usage α) : Action α → List (SlotId × Option α)
  | .connect a => u.register ++ [((u.signal.connect a).1, some a)]
  | .disconnect id => u.register.map fun p => if some p.1 = id then (p.1, none) else p
  | .disconnectAll => u.register.map fun p => (p.1, none)
  | .block _ => u.register

/-- An action on the signal, noted in the register. -/
def perform (u : Usage α) (action : Action α) : Usage α :=
  ⟨u.signal.perform action, u.note action⟩

/-- The connections that nobody has given up, in the order in which they were made. -/
def live (u : Usage α) : List (SlotId × α) :=
  u.register.filterMap fun p => p.2.map fun a => (p.1, a)

/-- A connection is live if it is registered with its receiver. -/
theorem mem_live {id : SlotId} {a : α} : (id, a) ∈ u.live ↔ (id, some a) ∈ u.register := by
  rw [live, List.mem_filterMap]
  constructor
  · rintro ⟨⟨i, c⟩, hmem, hentry⟩
    obtain ⟨b, rfl, hb⟩ := Option.map_eq_some_iff.1 hentry
    obtain ⟨rfl, rfl⟩ := Prod.mk.inj hb
    exact hmem
  · intro hmem
    exact ⟨(id, some a), hmem, rfl⟩

/-- The signal behaves as the register says. -/
structure Agrees (u : Usage α) : Prop where
  sound : u.signal.table.Sound
  issued : ∀ p ∈ u.register, u.signal.table.Issued p.1
  /-- No identifier is answered twice. -/
  distinct : (u.register.map Prod.fst).Nodup
  named : ∀ id a, (id, some a) ∈ u.register ↔ u.signal.table.get? id = some a

/-- A fresh signal behaves as its empty register says. -/
theorem agrees_fresh : (fresh : Usage α).Agrees where
  sound := SlotTable.sound_empty
  issued p hp := absurd hp List.not_mem_nil
  distinct := List.nodup_nil
  named id a := by simp [fresh, empty, SlotTable.empty, SlotTable.get?]

namespace Agrees

/-- The live connections are those of the signal. -/
theorem lists_live (h : u.Agrees) : u.signal.Lists u.live where
  once := by
    have hsub : (u.live.map Prod.fst).Sublist (u.register.map Prod.fst) := by
      unfold live
      generalize u.register = register
      induction register with
      | nil => exact .slnil
      | cons p rest ih =>
        obtain ⟨id, c⟩ := p
        cases c with
        | none => exact ih.cons id
        | some a => exact ih.cons_cons id
    exact hsub.nodup h.distinct
  exact id a := mem_live.trans (h.named id a)

/-- The identifiers noted stay the same, except that a connection adds one. -/
theorem map_fst_note (u : Usage α) (action : Action α) :
    (u.note action).map Prod.fst = u.register.map Prod.fst ++
      match action with
      | .connect a => [(u.signal.connect a).1]
      | _ => [] := by
  cases action with
  | connect a => simp [note]
  | disconnect id =>
    have hfst : ∀ p : SlotId × Option α, (if some p.1 = id then (p.1, none) else p).1 = p.1 := by
      intro p
      split <;> rfl
    simp [note, Function.comp_def, hfst]
  | disconnectAll => simp [note, Function.comp_def]
  | block on => simp [note]

/-- What is live after an action is what the signal then names. -/
theorem named_perform (h : u.Agrees) (action : Action α) (id : SlotId) (a : α) :
    (id, some a) ∈ u.note action ↔ (u.signal.perform action).table.get? id = some a := by
  cases action with
  | connect b =>
    have hget : (u.signal.perform (.connect b)).table.get? id =
        if id = u.signal.table.nextId then some b else u.signal.table.get? id :=
      h.sound.get?_insert b id
    have hnew : (id, some a) ∈ u.register → id ≠ u.signal.table.nextId :=
      fun hmem => (h.issued _ hmem).ne_nextId
    have hanswer : (u.signal.connect b).1 = u.signal.table.nextId := rfl
    rw [hget, note, List.mem_append, List.mem_singleton, hanswer, Prod.mk.injEq, Option.some.injEq]
    split
    · rename_i he
      constructor
      · rintro (hmem | ⟨-, rfl⟩)
        · exact absurd he (hnew hmem)
        · rfl
      · intro hb
        exact .inr ⟨he, (Option.some.inj hb).symm⟩
    · rename_i hne
      rw [← h.named id a]
      exact or_iff_left fun hboth => hne hboth.1
  | disconnect gone =>
    have hget : (u.signal.perform (.disconnect gone)).table.get? id =
        if some id = gone then none else u.signal.table.get? id := by
      cases gone with
      | none => rfl
      | some gone =>
        simp only [Option.some.injEq]
        exact SlotTable.get?_remove u.signal.table gone id
    have hnote : (id, some a) ∈ u.note (.disconnect gone) ↔
        some id ≠ gone ∧ (id, some a) ∈ u.register := by
      rw [note, List.mem_map]
      constructor
      · rintro ⟨p, hp, he⟩
        split at he
        · exact absurd (congrArg Prod.snd he).symm (Option.some_ne_none a)
        · rename_i hne
          subst he
          exact ⟨hne, hp⟩
      · rintro ⟨hne, hmem⟩
        exact ⟨_, hmem, if_neg hne⟩
    rw [hnote, hget, h.named id a]
    split
    · rename_i he
      exact ⟨fun hboth => absurd he hboth.1, fun hnone => absurd hnone.symm (Option.some_ne_none a)⟩
    · rename_i hne
      exact and_iff_right hne
  | disconnectAll =>
    have hget : (u.signal.perform .disconnectAll).table.get? id = none := SlotTable.get?_clear _ _
    rw [hget, note, List.mem_map]
    constructor
    · rintro ⟨p, -, he⟩
      exact absurd (congrArg Prod.snd he).symm (Option.some_ne_none a)
    · exact fun hnone => absurd hnone.symm (Option.some_ne_none a)
  | block on => exact h.named id a

/-- Whatever is done, the signal behaves as the register says. -/
theorem perform (h : u.Agrees) (action : Action α) : (u.perform action).Agrees where
  sound := sound_perform h.sound action
  issued := by
    have hold : ∀ id ∈ u.register.map Prod.fst, (u.signal.perform action).table.Issued id := by
      intro id hid
      obtain ⟨p, hp, rfl⟩ := List.mem_map.1 hid
      exact issued_perform h.sound action (h.issued p hp)
    intro p hp
    have hmem : p.1 ∈ (u.note action).map Prod.fst := List.mem_map_of_mem hp
    rw [map_fst_note] at hmem
    cases action with
    | connect a =>
      rcases List.mem_append.1 hmem with hmem | hmem
      · exact hold _ hmem
      · rw [List.mem_singleton.1 hmem]
        exact h.sound.issued_nextId a
    | disconnect | disconnectAll | block => exact hold _ (by simpa using hmem)
  distinct := by
    change ((u.note action).map Prod.fst).Nodup
    rw [map_fst_note]
    cases action with
    | connect a =>
      refine List.nodup_append.2 ⟨h.distinct, List.nodup_singleton _, ?_⟩
      rintro id hid _ hnew rfl
      obtain ⟨p, hp, rfl⟩ := List.mem_map.1 hid
      exact (h.issued p hp).ne_nextId (List.mem_singleton.1 hnew)
    | disconnect | disconnectAll | block => simpa using h.distinct
  named := h.named_perform action

/-- After every history the signal behaves as the register says. -/
theorem foldl_perform (h : u.Agrees) (history : List (Action α)) :
    (history.foldl Usage.perform u).Agrees := by
  induction history generalizing u with
  | nil => exact h
  | cons action rest ih => exact ih (h.perform action)

/-- A connection is given up successfully exactly if it is live. -/
theorem disconnect_iff (h : u.Agrees) (id : SlotId) :
    (u.signal.disconnect (some id)).1 = true ↔ ∃ a, (id, some a) ∈ u.register := by
  change (u.signal.table.get? id).isSome = true ↔ _
  rw [Option.isSome_iff_exists]
  exact exists_congr fun a => (h.named id a).symm

/-- An identifier that has been given up is not accepted. -/
theorem disconnect_of_gone (h : u.Agrees) {id : SlotId} (hid : (id, none) ∈ u.register) :
    (u.signal.disconnect (some id)).1 = false := by
  rw [Bool.eq_false_iff]
  intro hfound
  obtain ⟨a, ha⟩ := (h.disconnect_iff id).1 hfound
  have hsame := List.inj_on_of_nodup_map h.distinct hid ha rfl
  exact Option.some_ne_none a (congrArg Prod.snd hsame).symm

end Agrees

/-- What has been given up stays in the register as given up. -/
theorem gone_foldl_perform {id : SlotId} (h : (id, none) ∈ u.register)
    (history : List (Action α)) : (id, none) ∈ (history.foldl perform u).register := by
  induction history generalizing u with
  | nil => exact h
  | cons action rest ih =>
    refine ih ?_
    change (id, none) ∈ u.note action
    cases action with
    | connect a => exact List.mem_append_left _ h
    | disconnect gone => exact List.mem_map.2 ⟨_, h, by split <;> rfl⟩
    | disconnectAll => exact List.mem_map.2 ⟨_, h, rfl⟩
    | block on => exact h

/-- One connection less is live after its identifier is given up. -/
theorem live_perform_disconnect (u : Usage α) (id : SlotId) :
    (u.perform (.disconnect (some id))).live = u.live.filter fun p => p.1 ≠ id := by
  unfold live
  change (u.note (.disconnect (some id))).filterMap _ = _
  rw [note, List.filterMap_map, List.filter_filterMap]
  congr 1
  funext p
  obtain ⟨i, c⟩ := p
  by_cases hi : i = id <;> cases c <;> simp [hi, Option.filter]

end Usage

end GroupedRows.Signal
