import GroupedRows.Proofs.Arrangement
import GroupedRows.Proofs.Session.Safety

/-!
# What calls do to a session

All that a call does to a session, apart from sending notices, is a sequence of
alterations of a few kinds. The items of the source are exchanged only right before the
notice that announces it, or without any notice by a step made for that. So a condition
is kept by every call if it is kept by each kind of alteration.
-/

namespace GroupedRows

namespace Session

/-- One alteration by a call; some need that code outside may make the step. -/
inductive Alters (allowed : Session → Step → Prop) (s : Session) : Session → Prop where
  | write (records : List LogRecord) : Alters allowed s (s.write records)
  | hold (held : OrderedMap String Snapshot) : Alters allowed s { s with held }
  | bind (binding : Cell Binding) : Alters allowed s (s.modifySource ({ · with binding }))
  | rebuild (c : TableId) (properties : List String) (expandAll : Bool) :
      Alters allowed s (s.rebuild c properties expandAll)
  | arrange (c : TableId) (f : Arrangement → Arrangement) :
      (∀ t, s.table? c = some t → t.arrangement.Alters (f t.arrangement)) →
      Alters allowed s (s.arrange c f)
  | openTable (settings : Settings) : Alters allowed s (s.openTable settings)
  | close (c : TableId) : Alters allowed s (s.modifyEntry c ({ · with isOpen := false }))
  | enter (c : TableId) : s.isOpen c = true → Alters allowed s (s.enter c)
  | finish (c : TableId) :
      Alters allowed s (s.modifyEntry c fun e => { e with calls := e.calls - 1 })
  | release (c : TableId) : Alters allowed s (s.release c)
  | block (channel : Channel) (on : Bool) : allowed s (.block channel on) →
      Alters allowed s (s.block channel on)
  | listen (name : String) (channel : Channel) (script : List Step) (times : Nat) :
      allowed s (.listen name channel script times) →
      Alters allowed s (s.listen name channel script times)
  | unlisten (name : String) (channel : Channel) : allowed s (.unlisten name channel) →
      Alters allowed s (s.disconnect channel (s.names.get? name)).2
  | load (items : List Item) : allowed s (.source (.loadQuietly items)) →
      Alters allowed s (s.setStore (.ofAll items))

/-- Any number of alterations. -/
abbrev Altered (allowed : Session → Step → Prop) : Session → Session → Prop :=
  Relation.ReflTransGen (Alters allowed)

/-- How calls exchange the items; a change in place needs that code outside may make the step. -/
inductive Exchanges (allowed : Session → Step → Prop) (s : Session) : ItemStore → Prop where
  | push (i : Item) : s.source.store.contains i.id = false →
      Exchanges allowed s (s.source.store.push i)
  | insert (position : Nat) (i : Item) : s.source.store.contains i.id = false →
      Exchanges allowed s (s.source.store.insert position i)
  | remove (position : Nat) : Exchanges allowed s (s.source.store.removeAt position)
  | modify (id : ItemId) (edit : Item.Edit) (position : Nat) :
      s.source.store.positions.get? id = some position → allowed s (.source (.modify id edit)) →
      Exchanges allowed s (s.source.store.modifyAt position (·.edit edit))
  | replaceAll (items : List Item) : Exchanges allowed s (.ofItems items)

/-- From which sessions a notice goes out: altered ones, and for a change of the items also those
whose items have been exchanged last. -/
inductive Departs (allowed : Session → Step → Prop) (s : Session) : Notice → Session → Prop where
  | altered (n : Notice) {s' : Session} : Altered allowed s s' → Departs allowed s n s'
  | exchanged (change : ItemChange) (store : ItemStore) {s' : Session} : Altered allowed s s' →
      Exchanges allowed s' store →
      Departs allowed s (.items change) ((s'.setStore store).writeEntry (.itemsChanged change))

end Session

open Session

namespace Course

variable {α β : Type} {allowed : Session → Step → Prop}

/-- Between notices there are alterations only. -/
def Follows (allowed : Session → Step → Prop) : Session → Course α → Prop
  | start, ended _ s => Altered allowed start s
  | start, sends n s rest => Departs allowed start n s ∧ ∀ s, (rest s).Follows allowed s

/-- Alterations may come before a course that follows the rules. -/
theorem Follows.of_altered {s s' : Session} (h : Altered allowed s s') {c : Course α}
    (hc : c.Follows allowed s') : c.Follows allowed s := by
  cases c with
  | ended answer t => exact h.trans hc
  | sends n t rest =>
    refine ⟨?_, hc.2⟩
    cases hc.1 with
    | altered n hn => exact .altered n (h.trans hn)
    | exchanged change store hn hx => exact .exchanged change store (h.trans hn) hx

/-- Courses that follow the rules do so one after the other. -/
theorem Follows.andThen {s : Session} {c : Course α} {f : α → Session → Course β}
    (h : c.Follows allowed s) (hf : ∀ answer s, (f answer s).Follows allowed s) :
    (c.andThen f).Follows allowed s := by
  induction c generalizing s with
  | ended answer t => exact (hf answer t).of_altered h
  | sends n t rest ih => exact ⟨h.1, fun t => ih t (h.2 t)⟩

/-- What alterations keep, and what is fit for sending, a course keeps. -/
theorem Follows.keeps {sent : Notice → Session → Prop} {well : Session → Prop} {c : Course α}
    {s : Session} (h : c.Follows allowed s) (hs : well s)
    (halters : ∀ s s', well s → Alters allowed s s' → well s')
    (hsent : ∀ s n, well s → sent n s)
    (hexchange : ∀ s change store, well s → Exchanges allowed s store →
      sent (.items change) ((s.setStore store).writeEntry (.itemsChanged change))) :
    c.Keeps sent well := by
  have haltered : ∀ s s', Altered allowed s s' → well s → well s' := by
    intro s s' ha hs
    induction ha with
    | refl => exact hs
    | tail _ hstep ih => exact halters _ _ ih hstep
  induction c generalizing s with
  | ended answer t => exact haltered s t h hs
  | sends n t rest ih =>
    refine ⟨?_, fun t ht => ih t (h.2 t) ht⟩
    cases h.1 with
    | altered n ha => exact hsent _ n (haltered _ _ ha hs)
    | exchanged change store ha hx => exact hexchange _ change store (haltered _ _ ha hs) hx

end Course

namespace Call

variable {α β : Type} {allowed : Session → Step → Prop}

/-- From every session the call makes alterations only. -/
def Follows (allowed : Session → Step → Prop) (m : Call α) : Prop :=
  ∀ s, (m.start s).Follows allowed s

theorem follows_pure (answer : α) : Follows allowed (pure answer : Call α) :=
  fun _ => Relation.ReflTransGen.refl

theorem Follows.bind {m : Call α} {f : α → Call β} (h : Follows allowed m)
    (hf : ∀ answer, Follows allowed (f answer)) : Follows allowed (m >>= f) :=
  fun s => (h s).andThen fun answer => hf answer

/-- A value that the call does not ask anyone for may be used at once. -/
theorem Follows.map {m : Call α} (h : Follows allowed m) (f : α → β) :
    Follows allowed (do return f (← m)) :=
  h.bind fun _ => follows_pure _

/-- What is read is the session from which the call goes on. -/
theorem follows_read_at {f : Session → Call β} {s : Session}
    (h : ((f s).start s).Follows allowed s) : ((read >>= f).start s).Follows allowed s := h

theorem follows_read_bind {f : Session → Call β} (h : ∀ s, ((f s).start s).Follows allowed s) :
    Follows allowed (read >>= f) := h

/-- A change follows the rules if it is made of alterations. -/
theorem follows_change {f : Session → Session} (h : ∀ s, Altered allowed s (f s)) :
    Follows allowed (change f) := h

theorem follows_send (n : Notice) : Follows allowed (send n) :=
  fun _ => ⟨.altered n .refl, fun _ => Relation.ReflTransGen.refl⟩

end Call
end GroupedRows
