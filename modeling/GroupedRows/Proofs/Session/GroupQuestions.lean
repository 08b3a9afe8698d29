import GroupedRows.Proofs.GroupTree.Lookups
import GroupedRows.Proofs.Session.OneChange

/-!
# Questions about groups

Questions that make sense for groups only are refused for everything else. For a group
they agree with the source: the level, the values that the items of the group share and
no other items have, and the items themselves.
-/

namespace GroupedRows

open Call Session

/-- Identifiers that are known all have their items. -/
theorem Source.map_some_itemsOf {source : Source} (h : source.store.Indexed) {ids : List ItemId}
    (hids : ∀ id ∈ ids, id ∈ source.store.ids) :
    (source.itemsOf ids).map some = ids.map source.store.get? := by
  induction ids with
  | nil => rfl
  | cons id rest ih =>
    have hid : (source.store.get? id).isSome = true := by
      obtain ⟨i, hi, hid⟩ := List.mem_map.1 (hids id List.mem_cons_self)
      rw [h.get?_eq, List.find?_isSome]
      exact ⟨i, hi, decide_eq_true hid⟩
    obtain ⟨i, hi⟩ := Option.isSome_iff_exists.1 hid
    have hrest := ih fun j hj => hids j (List.mem_cons_of_mem _ hj)
    unfold itemsOf at hrest ⊢
    rw [List.filterMap_cons_some hi, List.map_cons, List.map_cons, hrest, hi]

/-- Questions about a group are answered if the tree of the synced table has it. -/
theorem Session.Calm.answer_askGroup {s : Session} {c : TableId} {t : Table} (h : s.Calm c t)
    (depth : Nat) (k : GroupPath) (answer : Answer) :
    ((calling c (askGroup c k answer)).run (Session.emit depth) s).1 =
      if (t.synced s.source).tree.contains k then answer else .failure (.unknownGroup k) :=
  h.answer_askTree depth fun t => if t.contains k then answer else .failure (.unknownGroup k)

namespace Moment

/-- Take an open table in a session at rest in which nobody acts, after fair use of the source as
a list. Its questions for the property, the value and the path of a group are answered for groups
and refused for everything else. The property of a group is the one on its level of the
properties, and the items of a group are those of the source that have all its values, absent
where they have none. Those that it holds directly have just these values. Asked for items, the
table gives the source's item for each of these identifiers, in their order and without leaving
one out. -/
theorem group_questions_match_source {items : List Item} {s : Session}
    (hs : Reaches FairListUse ⟨start items, []⟩ ⟨s, []⟩) (hquiet : s.Quiet) {c : TableId}
    (hopen : s.isOpen c = true) (depth : Nat) :
    let ask (q : TableQuery) := ((runStep (.askTable c q)).run (emit depth) s).1
    let store := s.source.store
    ∃ (properties : List String) (isGroup : GroupPath → Bool) (ids own : GroupPath → List ItemId),
      ask .properties = .texts properties ∧
      (∀ k, ask (.contains k) = .flag (isGroup k)) ∧
      (∀ k, ask (.itemIds k) = .ids (ids k)) ∧
      (∀ k, ask (.property k) =
        if isGroup k then .text k.property else .failure (.unknownGroup k)) ∧
      (∀ k, ask (.value k) =
        if isGroup k then .value (some k.value) else .failure (.unknownGroup k)) ∧
      (∀ k, ask (.groupOf (.group k)) =
        if isGroup k then .group (some k) else .failure (.unknownGroup k)) ∧
      (∀ id, ask (.groupOf (.item id)) = .failure (.notAGroup (.item id))) ∧
      (∀ k, isGroup k = true → properties[k.depth - 1]? = some k.property) ∧
      (∀ k, isGroup k = true → ∀ id, id ∈ ids k ↔
        id ∈ store.ids ∧ ∀ f ∈ k.facets, (store.value? id f.property).getD .absent = f.value) ∧
      (∀ k, own k = store.ids.filter fun id =>
        properties.map (fun p => ⟨p, (store.value? id p).getD .absent⟩) = k.facets) ∧
      (∀ k, ∃ found, ask (.items k) = .items found ∧
        found.map some = (ids k).map store.get?) ∧
      ∀ k, ∃ found, ask (.ownItems k) = .items found ∧
        found.map some = (own k).map store.get? := by
  intro ask store
  obtain ⟨t, ht⟩ := exists_table_of_isOpen hopen
  obtain ⟨hcalm, -⟩ := hs.calm hquiet ht hopen
  have hindexed : store.Indexed :=
    safe_indexed.holds (ItemStore.indexed_ofItems items) hs.listUse
  have htree : (t.synced s.source).tree = .build store.ids t.properties store.value? :=
    hs.fair.tree_synced ht hopen
  have htold : ∀ answer, ((calling c (askTree c answer)).run (emit depth) s).1 =
      answer (.build store.ids t.properties store.value?) :=
    fun answer => htree ▸ hcalm.answer_askTree depth answer
  have hgroup : ∀ k answer, ((calling c (askGroup c k answer)).run (emit depth) s).1 =
      if (GroupTree.build store.ids t.properties store.value?).contains k then answer
      else .failure (.unknownGroup k) :=
    fun k answer => htree ▸ hcalm.answer_askGroup depth k answer
  have hfound : ∀ ids : GroupTree → List ItemId,
      ((calling c (askItems c ids)).run (emit depth) s).1 =
        .items (s.source.itemsOf (ids (.build store.ids t.properties store.value?))) :=
    fun ids => htree ▸ hcalm.answer_askItems depth ids
  refine ⟨t.properties, (GroupTree.build store.ids t.properties store.value?).contains,
    (GroupTree.build store.ids t.properties store.value?).allItems,
    (GroupTree.build store.ids t.properties store.value?).ownItems,
    ?_, fun k => htold fun t => .flag (t.contains k), fun k => htold fun t => .ids (t.allItems k),
    fun k => hgroup k _, fun k => hgroup k _, fun k => hgroup k _, fun id => ?_,
    fun k hk => GroupTree.getElem?_properties_of_contains_build hk,
    fun k hk id => GroupTree.mem_allItems_build_iff_values hk,
    GroupTree.ownItems_build store.ids t.properties store.value?, fun k => ?_, fun k => ?_⟩
  · exact (htold fun t => .texts t.properties).trans
      (congrArg Answer.texts (GroupTree.properties_build ..))
  · exact hcalm.answer_calling (emit depth) (pure (.failure (.notAGroup (.item id))))
  · refine ⟨_, hfound fun t => t.allItems k, Source.map_some_itemsOf hindexed fun id hid => ?_⟩
    exact List.mem_of_mem_filter ((GroupTree.allItems_build_perm k).mem_iff.1 hid)
  · refine ⟨_, hfound fun t => t.ownItems k, Source.map_some_itemsOf hindexed fun id hid => ?_⟩
    rw [GroupTree.ownItems_build] at hid
    exact List.mem_of_mem_filter hid

/-- A pushed item that the tree does not have yet is found in its group; its property is on the
second level, and there is no such group one level above. -/
theorem group_questions_match_source_after_push :
    let new := (GroupPath.root "kind" .absent).child "size" .null
    let s := (runAll 0 [
      .openTable (.changes [.properties ["kind", "size"]]),
      .source (.push ⟨.number 2, .ofList [("size", .null)]⟩)] (start [⟨.number 1, .empty⟩])).2
    let ask (q : TableQuery) := ((runStep (.askTable 0 q)).run (emit 0) s).1
    (s.table? 0).any Table.stale = true ∧ ask (.property new) = .text "size" ∧
      ask (.value (.root "size" .null)) = .failure (.unknownGroup (.root "size" .null)) ∧
      ∃ found, ask (.items new) = .items found ∧
        found.map some = [s.source.store.get? (.number 2)] := by
  intro new s ask
  let steps : List Step := [
    .openTable (.changes [.properties ["kind", "size"]]),
    .source (.push ⟨.number 2, .ofList [("size", .null)]⟩)]
  have hp : Playable FairListUse (· ∈ steps) := by
    refine ⟨fun s step hstep => ?_, fun name channel script times hstep => ?_⟩
    · simp only [steps, List.mem_cons, List.not_mem_nil, or_false] at hstep
      rcases hstep with rfl | rfl
      · exact ⟨trivial, fun _ he => Step.noConfusion he⟩
      · exact ⟨trivial, fun _ he => Step.source.inj he ▸ trivial⟩
    · simp [steps] at hstep
  have hs : Reaches FairListUse ⟨start _, []⟩ ⟨s, []⟩ :=
    reaches_runAll hp 0 (fun _ hstep => hstep) fun l hl => absurd hl List.not_mem_nil
  obtain ⟨_, isGroup, ids, _, -, hcontains, hids, hproperty, hvalue, -, -, -, -, -, hitems, -⟩ :=
    group_questions_match_source hs (fun l hl => absurd hl List.not_mem_nil) (c := 0) rfl 0
  have hnew : isGroup new = true := by
    have h : (match ask (.contains new) with | .flag b => b | _ => false) = true := by
      decide +kernel
    rwa [show ask (.contains new) = _ from hcontains new] at h
  have hother : isGroup (.root "size" .null) = false := by
    have h : (match ask (.contains (.root "size" .null)) with | .flag b => b | _ => true) =
        false := by
      decide +kernel
    rwa [show ask (.contains (.root "size" .null)) = _ from hcontains _] at h
  have hone : ids new = [.number 2] := by
    have h : (match ask (.itemIds new) with | .ids l => l | _ => []) = [.number 2] := by
      decide +kernel
    rwa [show ask (.itemIds new) = _ from hids new] at h
  refine ⟨rfl, ?_, ?_, ?_⟩
  · exact (hproperty new).trans (if_pos hnew)
  · exact (hvalue _).trans (if_neg (Bool.eq_false_iff.1 hother))
  · obtain ⟨found, hanswer, hfound⟩ := hitems new
    refine ⟨found, hanswer, ?_⟩
    rw [hfound, hone]
    rfl

end Moment

end GroupedRows
