import GroupedRows.Session.SourceSteps

/-!
# What calls on the source are made of

Every step on the source reads its items and binding, changes them, logs, and sends
notices on the signals of the source. So a condition that composed calls inherit holds of
all steps on the source if it holds of these few calls.
-/

namespace GroupedRows

open Call

namespace Session

/-- The value depends only on the items and the binding. -/
def Sourced {α : Type} (f : Session → α) : Prop :=
  ∀ s s', s'.source.store = s.source.store → s'.source.binding = s.source.binding → f s' = f s

/-- A condition on calls that composed calls inherit, and that calls meet of which every step on the
source is made. -/
structure Sourcing (P : {α : Type} → Call α → Prop) : Prop where
  pure : ∀ {α : Type} (answer : α), P (pure answer : Call α)
  bind : ∀ {α β : Type} {m : Call α} {f : α → Call β}, P m → (∀ answer, P (f answer)) → P (m >>= f)
  read : ∀ {β : Type} {f : Session → Call β}, Sourced f → (∀ s, P (f s)) → P (read >>= f)
  setStore : ∀ store : ItemStore, P (change (·.setStore store))
  setBinding : ∀ binding : Cell Binding, P (change (·.modifySource ({ · with binding })))
  write : ∀ records : List LogRecord, P (change (·.write records))
  send : ∀ n : Notice, n.channel.table? = none → P (send n)

namespace Sourcing

variable {P : {α : Type} → Call α → Prop} {α β : Type}

theorem map (h : Sourcing P) {m : Call α} (hm : P m) (f : α → β) : P (do return f (← m)) :=
  h.bind hm fun answer => h.pure (f answer)

/-- A refused change is logged. -/
theorem refuse (h : Sourcing P) (record : LogEntry) (answer : α) :
    P (do Call.change (·.writeEntry record); return answer) :=
  h.bind (h.write [.entry record]) fun _ => h.pure answer

theorem announce (h : Sourcing P) (c : ItemChange) : P (announce c) :=
  h.bind (h.write [.entry (.itemsChanged c)]) fun _ => h.send _ rfl

/-- Exchanged items are announced. -/
theorem replace (h : Sourcing P) (store : ItemStore) (c : ItemChange) (answer : α) :
    P (do Call.change (·.setStore store); Session.announce c; return answer) :=
  h.bind (h.setStore store) fun _ => h.map (h.announce c) fun _ => answer

theorem bindTo (h : Sourcing P) (state : Binding) : P (Session.bind state) := by
  refine h.read (fun _ _ _ hbinding => ?_) fun s => ?_
  · dsimp only
    rw [hbinding]
  · refine h.bind (h.setBinding _) fun _ => ?_
    split
    · exact h.bind (h.write [.entry (.bindingChanged state)]) fun _ => h.send _ rfl
    · exact h.pure ()

/-- Every step on the source meets the condition. -/
theorem runSource (h : Sourcing P) (step : SourceStep) : P (runSource step) := by
  cases step with
  | push i | insert position i =>
    refine h.map (h.read (fun _ _ hstore _ => ?_) fun s => ?_) _
    · dsimp only
      rw [hstore]
    · dsimp only
      split
      · exact h.refuse _ _
      · exact h.replace _ _ _
  | remove id | modify id edit =>
    refine h.map (h.read (fun _ _ hstore _ => ?_) fun s => ?_) _
    · dsimp only
      rw [hstore]
    · dsimp only
      split
      · exact h.pure none
      · exact h.replace _ _ _
  | replaceAll items =>
    have hstore : P (do Call.change (·.write (storeLog items))
                        Call.change (·.setStore (.ofItems items))) :=
      h.bind (h.write _) fun _ => h.setStore _
    exact h.map (h.bind hstore fun _ => h.announce _) _
  | clear => exact h.replace _ _ _
  | bind state => exact h.map (h.bindTo state) _
  | announce c => exact h.map (h.send _ rfl) _
  | loadQuietly items => exact h.map (h.setStore _) _
  | bindQuietly state => exact h.map (h.setBinding ⟨state⟩) _

end Sourcing

end Session

end GroupedRows
