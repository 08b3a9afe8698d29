import GroupedRows.Proofs.FirstOccurrence
import GroupedRows.Proofs.ItemStore
import GroupedRows.Proofs.Reference

/-!
# The source as a list without repeated identifiers

What each step makes of a list of items, how it answers, and what it announces: stated
by where items stand in the list, with no map of positions. The announcement of a change
tells how to get from one list of identifiers to the other.
-/

namespace GroupedRows

/-- The latter are the items of a list that come first of their identifier, in order. -/
structure FirstOfEach (items firsts : List Item) : Prop where
  ids : firsts.map Item.id = (items.map Item.id).eraseDups
  first : ∀ i ∈ firsts, items.find? (·.id = i.id) = some i

/-- The identifiers before and after a change are those that its announcement tells. -/
def ItemChange.Describes (old new : List ItemId) : ItemChange → Prop
  | .added position count => count = 1 ∧ position < new.length ∧ new.eraseIdx position = old
  | .removed position count => count = 1 ∧ position < old.length ∧ old.eraseIdx position = new
  | .refreshed => True
  | .cleared => new = []

/-- The step changes the list or the binding and announces it; a changed item keeps its
identifier. -/
def SourceStep.OnList : SourceStep → Prop
  | .modify id edit => edit.rename.getD id = id
  | .announce _ | .loadQuietly _ | .bindQuietly _ => False
  | .push _ | .insert _ _ | .remove _ | .replaceAll _ | .clear | .bind _ => True

namespace PlainSource

/-- The identifiers in order. -/
def ids (w : PlainSource) : List ItemId := w.items.map Item.id

/-- Answer to a question. -/
def ask (w : PlainSource) (query : SourceQuery) : Answer := PlainSession.askSource query ⟨w, []⟩

/-- A step, how it is answered, what it announces when it has been made, and what it leaves. -/
inductive Step : PlainSource → SourceStep → Answer → Option Notice → PlainSource → Prop where
  | push {items : List Item} {i : Item} (b : Binding) : i.id ∉ items.map Item.id →
      Step ⟨items, b⟩ (.push i) (.flag true) (some (.items (.added items.length 1)))
        ⟨items ++ [i], b⟩
  | pushTaken {w : PlainSource} {i : Item} : i.id ∈ w.ids →
      Step w (.push i) (.flag false) none w
  | insert {front back : List Item} {position : Nat} {i : Item} (b : Binding) :
      i.id ∉ (front ++ back).map Item.id → front.length = min position (front ++ back).length →
      Step ⟨front ++ back, b⟩ (.insert position i) (.flag true)
        (some (.items (.added front.length 1))) ⟨front ++ i :: back, b⟩
  | insertTaken {w : PlainSource} {i : Item} (position : Nat) : i.id ∈ w.ids →
      Step w (.insert position i) (.flag false) none w
  | remove (front back : List Item) (i : Item) (b : Binding) :
      Step ⟨front ++ i :: back, b⟩ (.remove i.id) (.item (some i))
        (some (.items (.removed front.length 1))) ⟨front ++ back, b⟩
  | removeMissing {w : PlainSource} {id : ItemId} : id ∉ w.ids →
      Step w (.remove id) (.item none) none w
  | modify (front back : List Item) (i : Item) (edit : Item.Edit) (b : Binding) :
      Step ⟨front ++ i :: back, b⟩ (.modify i.id edit) (.item (some i)) (some (.items .refreshed))
        ⟨front ++ i.edit edit :: back, b⟩
  | modifyMissing {w : PlainSource} {id : ItemId} (edit : Item.Edit) : id ∉ w.ids →
      Step w (.modify id edit) (.item none) none w
  | replaceAll {items firsts : List Item} (w : PlainSource) : FirstOfEach items firsts →
      Step w (.replaceAll items) .done (some (.items .refreshed)) ⟨firsts, w.binding⟩
  | clear (w : PlainSource) : Step w .clear .done (some (.items .cleared)) ⟨[], w.binding⟩
  | bind {w : PlainSource} {state : Binding} : w.binding ≠ state →
      Step w (.bind state) .done (some (.binding state)) ⟨w.items, state⟩
  | bindSame (w : PlainSource) : Step w (.bind w.binding) .done none w

/-- What is announced after a change of the items tells the change. -/
theorem Step.describes {w w' : PlainSource} {step : SourceStep} {answer : Answer}
    {change : ItemChange} (h : Step w step answer (some (.items change)) w') :
    change.Describes w.ids w'.ids := by
  cases h with
  | push b hi => simp [ItemChange.Describes, ids, List.eraseIdx_append_of_length_le]
  | insert b hi hp => simp [ItemChange.Describes, ids, List.eraseIdx_append]
  | remove front back i b => simp [ItemChange.Describes, ids, List.eraseIdx_append]
  | modify | replaceAll => trivial
  | clear => rfl

/-- An item of a list parts it. -/
theorem parts_of_getElem? {items : List Item} {p : Nat} {i : Item} (h : items[p]? = some i) :
    ∃ front back, items = front ++ i :: back ∧ p = front.length := by
  obtain ⟨hlt, rfl⟩ := List.getElem?_eq_some_iff.1 h
  refine ⟨items.take p, items.drop (p + 1), ?_, ?_⟩
  · rw [List.getElem_cons_drop, List.take_append_drop]
  · rw [List.length_take, Nat.min_eq_left (Nat.le_of_lt hlt)]

/-- To insert at the place where two lists meet puts the item between them. -/
theorem insertIdx_length_append (front back : List Item) (i : Item) :
    (front ++ back).insertIdx front.length i = front ++ i :: back := by
  induction front with
  | nil => rfl
  | cons j front ih => exact congrArg (j :: ·) ih

/-- An item is inserted between the items of a front and those of a back, which is empty if the
position is behind the end. -/
theorem parts_of_insertIdx (items : List Item) (position : Nat) (i : Item) :
    ∃ front back, items = front ++ back ∧ front.length = min position items.length ∧
      items.insertIdx (min position items.length) i = front ++ i :: back := by
  have hparts := List.take_append_drop (min position items.length) items
  have hlength : (items.take (min position items.length)).length = min position items.length := by
    rw [List.length_take, Nat.min_eq_left (Nat.min_le_right _ _)]
  refine ⟨_, _, hparts.symm, hlength, ?_⟩
  have hinsert := insertIdx_length_append (items.take (min position items.length))
    (items.drop (min position items.length)) i
  rwa [hlength, hparts] at hinsert

variable {items : List Item} {p : Nat} {i : Item}

/-- Inserting at a position, behind the end or not. -/
theorem step_insertIdx (position : Nat) (b : Binding) (h : i.id ∉ items.map Item.id) :
    Step ⟨items, b⟩ (.insert position i) (.flag true)
      (some (.items (.added (min position items.length) 1)))
      ⟨items.insertIdx (min position items.length) i, b⟩ := by
  obtain ⟨front, back, hparts, hlength, hinsert⟩ := parts_of_insertIdx items position i
  rw [hinsert, ← hlength]
  subst hparts
  exact .insert b h hlength

/-- Removing the item that stands at a position. -/
theorem step_eraseIdx (b : Binding) (h : items[p]? = some i) :
    Step ⟨items, b⟩ (.remove i.id) (.item items[p]?) (some (.items (.removed p 1)))
      ⟨items.eraseIdx p, b⟩ := by
  rw [h]
  obtain ⟨front, back, rfl, rfl⟩ := parts_of_getElem? h
  rw [List.eraseIdx_append_of_length_le (Nat.le_refl _), Nat.sub_self, List.eraseIdx_cons_zero]
  exact .remove front back i b

/-- Changing the item that stands at a position. -/
theorem step_modifyIdx (edit : Item.Edit) (b : Binding) (h : items[p]? = some i) :
    Step ⟨items, b⟩ (.modify i.id edit) (.item items[p]?) (some (.items .refreshed))
      ⟨items.modify p (·.edit edit), b⟩ := by
  rw [h]
  obtain ⟨front, back, rfl, rfl⟩ := parts_of_getElem? h
  rw [List.modify_eq_take_cons_drop (by simp)]
  simpa using Step.modify front back i edit b

end PlainSource

namespace ItemStore

variable {s : ItemStore}

/-- A store has the identifiers of its items. -/
theorem Indexed.contains_iff (h : s.Indexed) (id : ItemId) : s.contains id = true ↔ id ∈ s.ids := by
  rw [h.contains_eq, List.any_eq_true, ids, List.mem_map]
  simp only [decide_eq_true_eq]

/-- Leaving out items whose identifier came before leaves the first item of each. -/
theorem firstOfEach_ofItems (items : List Item) : FirstOfEach items (ofItems items).items := by
  induction items using List.reverseRecOn with
  | nil => exact ⟨rfl, fun i hi => absurd hi List.not_mem_nil⟩
  | append_singleton items i ih =>
    have hmem : (ofItems items).contains i.id = true ↔ i.id ∈ items.map Item.id := by
      rw [← List.mem_eraseDups, ← ih.ids]
      exact (indexed_ofItems items).contains_iff i.id
    have hfound : ∀ {j}, items.find? (·.id = j.id) = some j →
        (items ++ [i]).find? (·.id = j.id) = some j := by
      intro j hj
      rw [List.find?_append, hj, Option.some_or]
    unfold ofItems
    rw [List.foldl_append, List.foldl_cons, List.foldl_nil]
    change FirstOfEach _ ((ofItems items).pushNew i).items
    unfold pushNew
    by_cases hi : i.id ∈ items.map Item.id
    · rw [if_pos (hmem.2 hi)]
      refine ⟨?_, fun j hj => hfound (ih.first j hj)⟩
      rw [List.map_append, List.map_singleton, eraseDups_concat, if_pos hi, ih.ids]
    · rw [if_neg fun h => hi (hmem.1 h)]
      refine ⟨?_, fun j hj => ?_⟩
      · rw [List.map_append, List.map_singleton, eraseDups_concat, if_neg hi, ← ih.ids]
        exact List.map_append
      · rcases List.mem_append.1 hj with hj | hj
        · exact hfound (ih.first j hj)
        · obtain rfl := List.mem_singleton.1 hj
          have hnone : items.find? (·.id = j.id) = none := by
            rw [List.find?_eq_none]
            exact fun k hk he => hi (List.mem_map.2 ⟨k, hk, of_decide_eq_true he⟩)
          rw [List.find?_append, hnone, Option.none_or]
          simp

/-- An identifier has a position exactly if it stands there. -/
theorem Indexed.position_iff (h : s.Indexed) (id : ItemId) (p : Nat) :
    s.positions.get? id = some p ↔ s.ids[p]? = some id := by
  rw [h.position, List.findIdx?_eq_some_iff_getElem, List.getElem?_eq_some_iff]
  refine exists_congr fun hp => ⟨fun hid => of_decide_eq_true hid.1, fun hid => ?_⟩
  refine ⟨decide_eq_true hid, fun q hq he => ?_⟩
  have hne := List.pairwise_iff_getElem.1 h.nodup q p (Nat.lt_trans hq hp) hp hq
  exact hne ((of_decide_eq_true he).trans hid.symm)

/-- At the position of an identifier stands its item. -/
theorem Indexed.item_of_position (h : s.Indexed) {id : ItemId} {p : Nat}
    (hp : s.positions.get? id = some p) : ∃ i, s.items[p]? = some i ∧ i.id = id := by
  rw [h.position_iff, ids, List.getElem?_map] at hp
  exact Option.map_eq_some_iff.1 hp

/-- Who has no position is no item's identifier. -/
theorem Indexed.position_none (h : s.Indexed) {id : ItemId} (hp : s.positions.get? id = none) :
    id ∉ s.ids := by
  intro hid
  obtain ⟨p, hlt, hp'⟩ := List.mem_iff_getElem.1 hid
  have hsome := (h.position_iff id p).2 (List.getElem?_eq_some_iff.2 ⟨hlt, hp'⟩)
  rw [hp] at hsome
  exact Option.some_ne_none p hsome.symm

end ItemStore

end GroupedRows
