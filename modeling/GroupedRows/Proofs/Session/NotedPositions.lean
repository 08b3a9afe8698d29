import GroupedRows.Proofs.Session.ListSource

/-!
# Noted positions are in bounds

A change in place may give an item any identifier, also one that another item has. From
then on the noted positions and the order of the items may disagree: an identifier that no
item has may keep its position, and of two items with one identifier only one can be
noted. What stays true is that there is an item at every noted position, since a change in
place keeps the number of items and every other operation notes positions anew or adds the
one at the end.
-/

namespace GroupedRows

namespace ItemStore

/-- Every noted position is below the number of items. -/
def InBounds (s : ItemStore) : Prop :=
  ∀ id p, s.positions.get? id = some p → p < s.items.length

variable {s : ItemStore}

/-- If the positions from `next` on are noted one for each item, or passed over, then there are none
behind the last item apart from those noted before. -/
theorem lt_of_noted (note : Nat → OrderedMap ItemId Nat → List Item → OrderedMap ItemId Nat)
    (hnil : ∀ next m, note next m [] = m)
    (hcons : ∀ next m i rest, ∃ m', note next m (i :: rest) = note (next + 1) m' rest ∧
      (m' = m ∨ m' = m.insert i.id next))
    {items : List Item} {next : Nat} {m : OrderedMap ItemId Nat} {id : ItemId} {p : Nat}
    (h : (note next m items).get? id = some p) :
    p < next + items.length ∨ m.get? id = some p := by
  induction items generalizing next m with
  | nil => exact .inr (hnil next m ▸ h)
  | cons i rest ih =>
    obtain ⟨m', hnote, hm'⟩ := hcons next m i rest
    rw [hnote] at h
    rw [List.length_cons]
    rcases ih h with hlt | hnoted
    · exact .inl (by omega)
    · rcases hm' with rfl | rfl
      · exact .inr hnoted
      · rw [OrderedMap.get?_insert] at hnoted
        split at hnoted
        · obtain rfl := Option.some.inj hnoted
          exact .inl (by omega)
        · exact .inr hnoted

/-- Positions that are noted anew are in bounds. -/
theorem inBounds_reindexed (items : List Item) : (reindexed items).InBounds := by
  intro id p hp
  have hlt := lt_of_noted index (fun _ _ => rfl)
    (fun next m i rest => ⟨_, rfl, .inr rfl⟩) hp
  change p < items.length
  simpa using hlt

/-- Positions that are noted for the first of each identifier are in bounds. -/
theorem inBounds_ofAll (items : List Item) : (ofAll items).InBounds := by
  intro id p hp
  have hlt := lt_of_noted indexFirst (fun _ _ => rfl)
    (fun next m i rest => ⟨_, rfl, ite_eq_or_eq _ _ _⟩) hp
  change p < items.length
  simpa using hlt

/-- Where identifiers are distinct and stand where they are noted, they are in bounds. -/
theorem Indexed.inBounds (h : s.Indexed) : s.InBounds := by
  intro id p hp
  obtain ⟨i, hi, -⟩ := h.item_of_position hp
  exact (List.getElem?_eq_some_iff.1 hi).1

/-- The position of a pushed item is the number of items before. -/
theorem InBounds.push (h : s.InBounds) (i : Item) : (s.push i).InBounds := by
  intro id p hp
  change (s.positions.insert i.id s.items.length).get? id = some p at hp
  change p < (s.items ++ [i]).length
  rw [OrderedMap.get?_insert] at hp
  rw [List.length_append, List.length_singleton]
  split at hp
  · obtain rfl := Option.some.inj hp
    exact Nat.lt_succ_self _
  · exact Nat.lt_succ_of_lt (h id p hp)

/-- A change in place keeps the number of items, whatever it does to the identifier. -/
theorem InBounds.modifyAt (h : s.InBounds) (position : Nat) (change : Item → Item) :
    (s.modifyAt position change).InBounds := by
  intro id p hp
  change p < (s.items.modify position change).length
  rw [List.length_modify]
  exact h id p hp

/-- At a noted position the items can be parted. -/
theorem InBounds.parts (h : s.InBounds) {id : ItemId} {p : Nat}
    (hp : s.positions.get? id = some p) :
    ∃ front i back, s.items = front ++ i :: back ∧ front.length = p ∧ s.items[p]? = some i := by
  have hi := List.getElem?_eq_getElem (h id p hp)
  obtain ⟨front, back, hparts, hlength⟩ := PlainSource.parts_of_getElem? hi
  exact ⟨front, _, back, hparts, hlength.symm, hi⟩

/-- An identifier names some item exactly if it has a position, though the item may be named
otherwise by now. -/
theorem InBounds.get?_isSome (h : s.InBounds) (id : ItemId) :
    (s.get? id).isSome = true ↔ id ∈ s.positions.keys := by
  rw [← OrderedMap.contains_iff, OrderedMap.contains, get?]
  cases hp : s.positions.get? id with
  | none => rfl
  | some p =>
    obtain ⟨_, i, _, -, -, hi⟩ := h.parts hp
    simp [hi]

end ItemStore

open Call Session

namespace Session

variable {s s' : Session}

/-- The step deals with the item at the noted position of an identifier: there is one, other items
take its place, this is announced, and the item is given back as it was. Without a noted position
nothing happens. -/
def DealsWithNoted (s : Session) (id : ItemId) (step : SourceStep) (c : Nat → ItemChange)
    (instead : Item → List Item) : Prop :=
  match s.source.store.positions.get? id with
  | none => (runSource step).start s = .ended (.item none) s
  | some p => ∃ front i back t, s.source.store.items = front ++ i :: back ∧ front.length = p ∧
      t.source.store.items = front ++ instead i ++ back ∧
      (runSource step).start s = .announcing (.item (some i)) t (some (.items (c p)))

/-- No step on the source needs an item where there is none. -/
structure StaysInBounds (s : Session) : Prop where
  position_lt : s.source.store.InBounds
  /-- The identifiers that name some item are those with a position, also for who asks about the
  properties of the item. -/
  item_iff : ∀ id, ∃ item?, askSource (.item id) s = .item item? ∧
    askSource (.propertyCount id) s = .position (item?.map fun i => i.properties.size) ∧
    (item?.isSome = true ↔ id ∈ s.source.store.positions.keys)
  remove : ∀ id, s.DealsWithNoted id (.remove id) (.removed · 1) fun _ => []
  modify : ∀ id edit,
    s.DealsWithNoted id (.modify id edit) (fun _ => .refreshed) fun i => [i.edit edit]
  /-- A new item is inserted between items, or at an end. -/
  insert : ∀ position i, s.source.store.contains i.id = false → ∃ front back t,
    s.source.store.items = front ++ back ∧ front.length = s.source.store.clamp position ∧
      t.source.store.items = front ++ i :: back ∧
      (runSource (.insert position i)).start s =
        .announcing (.flag true) t (some (.items (.added front.length 1)))

/-- Dealing with an item goes by its noted position: the store without it, or with another in its
place, is put in, and the change is announced. -/
theorem dealsWithNoted_of_start (h : s.source.store.InBounds) {step : SourceStep} {id : ItemId}
    (store : Nat → ItemStore) {c : Nat → ItemChange} {instead : Item → List Item}
    (hstart : (runSource step).start s = ((
      match s.source.store.positions.get? id with
      | none => return none
      | some p => do
        change (·.setStore (store p))
        announce (c p)
        return s.source.store.items[p]? : Call (Option Item)) >>= fun i => return .item i).start s)
    (hstore : ∀ front i back, s.source.store.items = front ++ i :: back →
      (store front.length).items = front ++ instead i ++ back) :
    s.DealsWithNoted id step c instead := by
  unfold DealsWithNoted
  cases hp : s.source.store.positions.get? id with
  | none => rw [hstart, hp]; rfl
  | some p =>
    obtain ⟨front, i, back, hparts, rfl, hi⟩ := h.parts hp
    refine ⟨front, i, back, (s.setStore (store front.length)).writeEntry
      (.itemsChanged (c front.length)), hparts, rfl, hstore front i back hparts, ?_⟩
    rw [hstart, hp, ← hi]
    rfl

/-- Where positions are in bounds, no step on the source needs an item that is not there. -/
theorem staysInBounds_of_inBounds (h : s.source.store.InBounds) : s.StaysInBounds where
  position_lt := h
  item_iff id := ⟨s.source.store.get? id, rfl, rfl, h.get?_isSome id⟩
  remove id := by
    refine dealsWithNoted_of_start h s.source.store.removeAt rfl fun front i back hparts => ?_
    change s.source.store.items.eraseIdx front.length = front ++ [] ++ back
    rw [hparts, List.eraseIdx_append_of_length_le (Nat.le_refl _), Nat.sub_self,
      List.eraseIdx_cons_zero, List.append_nil]
  modify id edit := by
    refine dealsWithNoted_of_start h (s.source.store.modifyAt · (·.edit edit)) rfl
      fun front i back hparts => ?_
    change s.source.store.items.modify front.length (·.edit edit) = front ++ [i.edit edit] ++ back
    rw [hparts, List.modify_eq_take_cons_drop (by simp)]
    simp
  insert position i hi := by
    obtain ⟨front, back, hparts, hlength, hinsert⟩ :=
      PlainSource.parts_of_insertIdx s.source.store.items position i
    refine ⟨front, back, (s.setStore (s.source.store.insert position i)).writeEntry
      (.itemsChanged (.added (s.source.store.clamp position) 1)), hparts, hlength, hinsert, ?_⟩
    rw [hlength]
    change ((if s.source.store.contains i.id then do
        change (·.writeEntry (.insertRejected i.id))
        return false
      else do
        change (·.setStore (s.source.store.insert position i))
        announce (.added (s.source.store.clamp position) 1)
        return true : Call Bool) >>= fun added => return Answer.flag added).start s = _
    rw [if_neg (Bool.eq_false_iff.1 hi)]
    rfl

/-- Whatever the items are exchanged for, positions are in bounds. -/
theorem inBounds_exchanges {allowed : Session → Step → Prop} (h : s.source.store.InBounds)
    {store : ItemStore} (hx : Exchanges allowed s store) : store.InBounds := by
  cases hx with
  | push i => exact h.push i
  | insert position i => exact ItemStore.inBounds_reindexed _
  | remove position => exact ItemStore.inBounds_reindexed _
  | modify id edit position => exact h.modifyAt position _
  | replaceAll items => exact (ItemStore.indexed_ofItems items).inBounds

end Session

namespace Moment

/-- Positions are in bounds at every moment. -/
theorem safe_inBounds : Safe AnyStep fun _ s => s.source.store.InBounds where
  call _ _ _ hs ha := by
    refine (follows_runStep ha).keeps hs (fun s s' hs h => ?_) (fun _ _ hs => hs)
      fun _ _ _ hs hx => inBounds_exchanges hs hx
    rcases store_alters_or h with heq | ⟨items, -, heq⟩
    · rw [heq]
      exact hs
    · rw [heq]
      exact ItemStore.inBounds_ofAll items
  note _ _ _ _ _ _ hs := hs
  receive _ n r _ s hs := by cases r <;> exact hs
  endEmission _ _ _ hs := hs

/-- Let code outside do anything with a session, from inside notices too, and give items other
identifiers at will. At every moment each noted position is that of an item, an identifier names
some item exactly if it has a position, a step that removes or changes an item finds one at the
noted position, and a new item is inserted at a position not behind the end. -/
theorem noted_positions_are_in_bounds {items : List Item} {m : Moment}
    (h : Reaches AnyStep ⟨start items, []⟩ m) : m.session.StaysInBounds :=
  staysInBounds_of_inBounds
    (safe_inBounds.holds (ItemStore.indexed_ofItems items).inBounds h)

/-- One item takes the identifier of the other: its own former identifier still has its position,
and names the item that now has the other's. -/
theorem noted_positions_are_in_bounds_after_renaming :
    let s := (runAll 0 [.source (.modify (.number 1) { rename := some (.number 2) })]
      (start [⟨.number 1, .empty⟩, ⟨.number 2, .empty⟩])).2
    s.StaysInBounds ∧ s.source.store.ids = [.number 2, .number 2] ∧
      s.source.store.positions.get? (.number 1) = some 0 ∧
      askSource (.item (.number 1)) s = .item (some ⟨.number 2, .empty⟩) := by
  intro s
  have hs : Reaches AnyStep ⟨start _, []⟩ ⟨s, []⟩ := reaches_runAll_ofStore _ _ 0 _
  exact ⟨noted_positions_are_in_bounds hs, rfl, rfl, rfl⟩

end Moment

end GroupedRows
