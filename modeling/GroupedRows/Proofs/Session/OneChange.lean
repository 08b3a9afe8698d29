import GroupedRows.Proofs.GroupTree.OneItem
import GroupedRows.Proofs.Session.ListSource
import GroupedRows.Proofs.Session.Views

/-!
# Changes of the source by one item

A step that adds or removes one item has changed the list before its notice goes out, and
where nobody acts the list then stays as it is. So the table, once synced, has the tree of
a list with one item more or less, and of the groups that were open it keeps those that
are still there.
-/

namespace GroupedRows

open Call Session

/-! ## The list -/

namespace PlainSource.Step

variable {w w' : PlainSource} {notice? : Option Notice} {id : ItemId} {i : Item} {position : Nat}

/-- A push adds the item at the end and leaves the binding. -/
theorem of_push (h : Step w (.push i) (.flag true) notice? w') :
    w'.items = w.items ++ [i] ∧ w'.binding = w.binding := by
  cases h
  exact ⟨rfl, rfl⟩

/-- An insertion adds the item somewhere and leaves the binding. -/
theorem of_insert (h : Step w (.insert position i) (.flag true) notice? w') :
    (∃ front back, w.items = front ++ back ∧ w'.items = front ++ i :: back) ∧
      w'.binding = w.binding := by
  cases h
  exact ⟨⟨_, _, rfl, rfl⟩, rfl⟩

/-- A removal takes away the item of the identifier and leaves the binding. -/
theorem of_remove (h : Step w (.remove id) (.item (some i)) notice? w') :
    i.id = id ∧ (∃ front back, w'.items = front ++ back ∧ w.items = front ++ i :: back) ∧
      w'.binding = w.binding := by
  cases h
  exact ⟨rfl, ⟨_, _, rfl, rfl⟩, rfl⟩

end PlainSource.Step

/-- A store with one item more has its identifier besides the others, whose values it keeps. -/
theorem ItemStore.Indexed.oneMore {store store' : ItemStore} (h : store.Indexed)
    (h' : store'.Indexed)
    {front back : List Item} {i : Item} (hitems : store.items = front ++ back)
    (hitems' : store'.items = front ++ i :: back) (properties : List String) :
    GroupTree.OneMore properties i.id store.ids store.value? store'.ids store'.value? where
  perm := by
    unfold ids
    rw [hitems, hitems']
    exact List.perm_middle.map Item.id
  nodup := h'.nodup
  facets j hj := by
    have hne : i.id ≠ j := by
      have hnodup := h'.nodup
      have hmem : j ∈ (front ++ back).map Item.id := hitems ▸ hj
      rw [ids, hitems', (List.perm_middle.map Item.id).nodup_iff, List.map_cons,
        List.nodup_cons] at hnodup
      exact fun e => hnodup.1 (e ▸ hmem)
    refine List.map_congr_left fun p _ => ?_
    have hfind : store'.get? j = store.get? j := by
      rw [h.get?_eq, h'.get?_eq, hitems, hitems', List.find?_append, List.find?_append,
        List.find?_cons, decide_eq_false hne]
    rw [value?, value?, hfind]

/-! ## The step -/

namespace Session

/-- In a session in which nobody acts, a step on the source sends its notices while nobody acts. -/
theorem quiet_source {s : Session} (h : s.Quiet) (step : SourceStep) :
    ((runStep (.source step)).start s).Keeps (fun _ => Quiet) Quiet := by
  let allowed (_ : Session) (made : Step) : Prop := made = .source step
  have hfollows : ((runStep (.source step)).start s).Follows allowed s := follows_runStep rfl
  refine hfollows.keeps h (fun s s' hs ha => ?_)
    (fun _ _ h => h) fun _ _ _ h _ => h
  rcases Moment.listeners_alters ha with hl | ⟨_, _, _, _, hlisten, _⟩
  · unfold Quiet
    rwa [hl]
  · exact absurd hlisten Step.noConfusion

/-- Where nobody acts, a step on the source does to it what it does to the list. -/
theorem plain_step {s : Session} (h : s.source.store.Indexed) (hquiet : s.Quiet)
    {step : SourceStep} (hstep : step.OnList) (depth : Nat) :
    let result := (runStep (.source step)).run (emit depth) s
    ∃ notice?, s.plain.Step step result.1 notice? result.2.plain := by
  intro result
  obtain ⟨answer, notice?, t, hstart, hlist, -⟩ := (refinesList_of_indexed h).steps step hstep
  have hkeeps := quiet_source hquiet step
  have hstart' : (runStep (.source step)).start s = .announcing answer t notice? := hstart
  rw [hstart'] at hkeeps
  have hresult : result = (Course.announcing answer t notice?).finish (emit depth) :=
    congrArg (Course.finish (emit depth)) hstart'
  refine ⟨notice?, ?_⟩
  rw [hresult]
  cases notice? with
  | none => exact hlist
  | some n =>
    have hsource := (heard_emit depth n hkeeps.1).source
    have hplain : (emit depth n t).plain = t.plain :=
      congrArg (fun source : Source => (⟨source.store.items, source.binding.value⟩ : PlainSource))
        hsource
    exact hplain ▸ hlist

end Session

/-! ## The table -/

/-- A list of which one member more is told than it has, but which keeps its order, has this member
put in at one place. -/
theorem exists_parts_of_sublist {α : Type} {l l' : List α} {more : Option α} (h : l.Sublist l')
    (hperm : l'.Perm (more.toList ++ l)) :
    ∃ before after, l = before ++ after ∧ l' = before ++ more.toList ++ after := by
  cases more with
  | none =>
    have heq : l = l' := h.eq_of_length hperm.length_eq.symm
    exact ⟨l, [], (List.append_nil l).symm, by simp [heq]⟩
  | some a =>
    induction h with
    | slnil => exact absurd hperm.length_eq (by simp)
    | @cons l l' b h =>
      have hlength : l'.length = l.length := by simpa using hperm.length_eq
      obtain rfl := h.eq_of_length hlength.symm
      have hb : [b].Perm [a] := (List.perm_append_right_iff l).1 hperm
      obtain rfl : b = a := List.singleton_perm_singleton.1 hb
      exact ⟨[], l, rfl, rfl⟩
    | @cons_cons l l' b h ih =>
      have hswap : (b :: l').Perm (b :: a :: l) := hperm.trans (.swap b a l)
      obtain ⟨before, after, rfl, rfl⟩ := ih ((List.perm_cons b).1 hswap)
      exact ⟨b :: before, after, rfl, rfl⟩

/-- A table that keeps open groups has those open, when it is synced, that its tree has then. -/
theorem Table.ArrangedAs.mem_expansion_synced {t t' : Table} {source : Source}
    (h : t'.ArrangedAs t) (hcoherent : t.arrangement.Coherent)
    (hrestore : t.settings.restoreExpansion = true) {k : GroupPath} :
    k ∈ (t'.synced source).arrangement.expansion ↔
      k ∈ t.arrangement.expansion ∧ (t'.synced source).tree.contains k = true := by
  unfold Table.synced
  split
  · change k ∈ t'.arrangement.carried (source.tree t'.properties)
        t'.settings.restoreExpansion false ↔
      k ∈ t.arrangement.expansion ∧ (source.tree t'.properties).contains k = true
    have hcarried : t'.arrangement.carried (source.tree t'.properties)
        t'.settings.restoreExpansion false =
        t.arrangement.expansion.restrict (source.tree t'.properties) := by
      rw [h.settings, hrestore, h.arrangement]
      simp [Arrangement.carried]
    rw [hcarried, Expansion.mem_restrict]
    constructor
    · rintro ⟨-, hgroup, hk⟩
      exact ⟨hk, hgroup⟩
    · rintro ⟨hk, hgroup⟩
      refine ⟨?_, hgroup, hk⟩
      have hproperties := GroupTree.properties_ne_nil_of_contains_build hgroup
      simpa [GroupTree.hasGroups, Source.tree, ItemStore.tree] using hproperties
  · unfold Table.tree
    rw [h.arrangement]
    exact ⟨fun hk => ⟨hk, hcoherent.contains_of_open k hk⟩, And.left⟩

namespace Arrangement

variable {a a' : Arrangement} {properties : List String} {store store' : ItemStore} {id : ItemId}

/-- What stays open of an expansion in a tree shows the same rows. -/
theorem rows_view_of_kept (htree' : a'.tree = store'.tree properties)
    (hkept : ∀ k, k ∈ a'.expansion ↔ k ∈ a.expansion ∧ a'.tree.contains k = true) :
    a'.view.rows = Snapshot.visibleRows (store'.tree properties) a.expansion := by
  unfold view
  dsimp only
  rw [htree']
  refine GroupTree.visibleRows_build_congr fun k hk => ?_
  rw [hkept, htree']
  exact and_iff_left hk

/-- One item more shows one row more at most. -/
theorem Coherent.rows_view_perm (hcoherent : a.Coherent) (htree : a.tree = store.tree properties)
    (htree' : a'.tree = store'.tree properties)
    (hkept : ∀ k, k ∈ a'.expansion ↔ k ∈ a.expansion ∧ a'.tree.contains k = true)
    (h : GroupTree.OneMore properties id store.ids store.value? store'.ids store'.value?) :
    a'.view.rows.Perm
      ((Row.arriving a.view.isGroup a.view.isOpen (a'.view.pathOf id) id).toList ++
        a.view.rows) := by
  have hopen := hcoherent.contains_of_open
  rw [rows_view_of_kept htree' hkept]
  unfold view
  dsimp only
  rw [htree'] at *
  rw [htree] at hopen ⊢
  exact h.visibleRows_perm hopen

/-- If the item comes last, the other rows keep their order. -/
theorem rows_view_sublist (htree : a.tree = store.tree properties)
    (htree' : a'.tree = store'.tree properties)
    (hkept : ∀ k, k ∈ a'.expansion ↔ k ∈ a.expansion ∧ a'.tree.contains k = true)
    (hlast : store'.ids = store.ids ++ [id])
    (h : GroupTree.OneMore properties id store.ids store.value? store'.ids store'.value?) :
    a.view.rows.Sublist a'.view.rows := by
  rw [rows_view_of_kept htree' hkept]
  unfold view ItemStore.tree
  dsimp only
  rw [htree, hlast]
  exact (hlast ▸ h).visibleRows_sublist

/-- Without an item, its row is gone and the headers of the groups that it had for itself. -/
theorem rows_view_perm_filter (htree : a.tree = store.tree properties)
    (htree' : a'.tree = store'.tree properties)
    (hkept : ∀ k, k ∈ a'.expansion ↔ k ∈ a.expansion ∧ a'.tree.contains k = true)
    (h : GroupTree.OneMore properties id store'.ids store'.value? store.ids store.value?) :
    a'.view.rows.Perm (a.view.rows.filter (Row.staysWithout id a.view.itemIds)) := by
  rw [rows_view_of_kept htree' hkept]
  unfold view
  dsimp only
  rw [htree]
  exact h.visibleRows_perm_filter

end Arrangement

namespace Moment

/-- The source is used as a list, changes of the items are told, and tables stay connected. -/
def FairListUse (s : Session) (step : Step) : Prop := Fair s step ∧ ListUse s step

variable {allowed allowed' : Session → Step → Prop} {m m' : Moment}

/-- Where more is allowed, there are no fewer moves. -/
theorem Moves.mono (h : ∀ s step, allowed s step → allowed' s step) (hm : Moves allowed m m') :
    Moves allowed' m m' := by
  cases hm with
  | call m step hfree ha => exact .call m step hfree (h _ _ ha)
  | note m listeners names held journal hfree => exact .note m listeners names held journal hfree
  | receive s n r pending l rest waiting => exact .receive s n r pending l rest waiting
  | goOn s n l rest waiting => exact .goOn s n l rest waiting

/-- Fair use as a list is fair. -/
theorem Reaches.fair (h : Reaches FairListUse m m') : Reaches Fair m m' :=
  Relation.ReflTransGen.mono (fun _ _ => Moves.mono fun _ _ => And.left) _ _ h

/-- Fair use as a list is use as a list. -/
theorem Reaches.listUse (h : Reaches FairListUse m m') : Reaches ListUse m m' :=
  Relation.ReflTransGen.mono (fun _ _ => Moves.mono fun _ _ => And.right) _ _ h

/-- Where nobody acts, a step on the source leads on from rest to rest. -/
theorem Reaches.source_step {s : Session} (h : Reaches allowed m ⟨s, []⟩) (hquiet : s.Quiet)
    {step : SourceStep} (hallowed : ∀ s, allowed s (.source step)) (depth : Nat) :
    Reaches allowed m ⟨((runStep (.source step)).run (emit depth) s).2, []⟩ := by
  have hp : Playable allowed (· = .source step) :=
    ⟨fun s _ he => he ▸ hallowed s, fun _ _ _ _ he => Step.noConfusion he⟩
  have hscripted : Scripted (· = .source step) s := by
    intro l hl made hmade
    rw [hquiet l hl] at hmade
    exact absurd hmade List.not_mem_nil
  obtain ⟨-, ns, hend⟩ := (realizes_emit hp depth).step hp hscripted rfl
  exact h.trans (leads_delivery depth _ _ _ [] (.call (.rest s) (hallowed s) hend) isFree_nil)

/-- After a step on the list the source is as the list is, and the table answers by an arrangement
of the present items, in which those groups are open that were open and are still there. If the step
has not made the table stale, its tree is right as it is. -/
theorem Reaches.arrangement_after {items : List Item} {s : Session}
    (hs : Reaches FairListUse ⟨start items, []⟩ ⟨s, []⟩) (hquiet : s.Quiet) {c : TableId}
    {t : Table} (ht : s.table? c = some t) (hopen : s.isOpen c = true)
    (hrestore : t.settings.restoreExpansion = true) (hactive : s.source.isActive = true)
    (step : SourceStep) (hlist : step.OnList) (hfair : ∀ s, Fair s (.source step)) (depth : Nat) :
    let result := (runStep (.source step)).run (emit depth) s
    (∃ notice?, s.plain.Step step result.1 notice? result.2.plain) ∧
      result.2.source.store.Indexed ∧ ∃ a : Arrangement,
        a.tree = result.2.source.store.tree t.properties ∧
        (∀ k, k ∈ a.expansion ↔ k ∈ t.arrangement.expansion ∧ a.tree.contains k = true) ∧
        (result.2.plain.binding = s.plain.binding → result.2.AnswersBy depth c a.view) := by
  intro result
  obtain ⟨hcalm, hcoherent⟩ := hs.calm hquiet ht hopen
  have hindexed : s.source.store.Indexed :=
    safe_indexed.holds (ItemStore.indexed_ofItems items) hs.listUse
  have hs' : Reaches FairListUse ⟨start items, []⟩ ⟨result.2, []⟩ :=
    hs.source_step hquiet (fun s => ⟨hfair s, fun _ he => Step.source.inj he ▸ hlist⟩) depth
  obtain ⟨t', hcalm', harranged⟩ := (sourcing_leavesArranged depth c).runSource step s t hcalm
  have hcoherent' : t'.arrangement.Coherent := harranged.arrangement ▸ hcoherent
  have hproperties : t'.properties = t.properties :=
    congrArg (fun a : Arrangement => a.tree.properties) harranged.arrangement
  have htree : (t'.synced result.2.source).tree = result.2.source.tree t'.properties :=
    hs'.fair.tree_synced hcalm'.table hcalm'.isOpen
  refine ⟨plain_step hindexed hquiet hlist depth,
    safe_indexed.holds (ItemStore.indexed_ofItems items) hs'.listUse,
    (t'.synced result.2.source).arrangement, hproperties ▸ htree,
    fun k => harranged.mem_expansion_synced hcoherent hrestore, fun hbinding => ?_⟩
  refine hcalm'.answersBy hcoherent' ?_ depth
  change decide (result.2.plain.binding = .active) = true
  rw [hbinding]
  exact hactive

/-- Take a session at rest in which nobody acts, after fair use of the source as a list, and in it
an open table that keeps open groups, is not stale and has an active source. When an item is pushed
or inserted, the next view has all rows of the one before and at most one more: the row of the item
if all groups of its path are open, or the header of the topmost of them that is new if all groups
above it are open. A pushed item leaves the other rows in their order. When an item is removed, the
next view has the rows of the one before, without the row of the item and the headers of the groups
that had no other item. -/
theorem one_item_moves_one_row {items : List Item} {s : Session}
    (hs : Reaches FairListUse ⟨start items, []⟩ ⟨s, []⟩) (hquiet : s.Quiet) {c : TableId}
    {t : Table} (ht : s.table? c = some t) (hopen : s.isOpen c = true)
    (hrestore : t.settings.restoreExpansion = true) (hstale : t.stale = false)
    (hactive : s.source.isActive = true) (depth : Nat) :
    let result (step : SourceStep) := (runStep (.source step)).run (emit depth) s
    ∃ v, s.AnswersBy depth c v ∧
      (∀ i, (result (.push i)).1 = .flag true → ∃ v', (result (.push i)).2.AnswersBy depth c v' ∧
        ∃ before after, v.rows = before ++ after ∧ v'.rows = before ++
          (Row.arriving v.isGroup v.isOpen (v'.pathOf i.id) i.id).toList ++ after) ∧
      (∀ position i, (result (.insert position i)).1 = .flag true →
        ∃ v', (result (.insert position i)).2.AnswersBy depth c v' ∧
          v'.rows.Perm
            ((Row.arriving v.isGroup v.isOpen (v'.pathOf i.id) i.id).toList ++ v.rows)) ∧
      ∀ id i, (result (.remove id)).1 = .item (some i) →
        ∃ v', (result (.remove id)).2.AnswersBy depth c v' ∧
          v'.rows.Perm (v.rows.filter (Row.staysWithout id v.itemIds)) := by
  intro result
  obtain ⟨hcalm, hcoherent⟩ := hs.calm hquiet ht hopen
  have hindexed : s.source.store.Indexed :=
    safe_indexed.holds (ItemStore.indexed_ofItems items) hs.listUse
  have hsynced : t.synced s.source = t := if_neg (Bool.eq_false_iff.1 hstale)
  have htree : t.arrangement.tree = s.source.store.tree t.properties := by
    have hpresent := hs.fair.tree_synced ht hopen
    rwa [hsynced] at hpresent
  have hanswers := hcalm.answersBy hcoherent hactive depth
  rw [hsynced] at hanswers
  refine ⟨_, hanswers, fun i hdone => ?_, fun position i hdone => ?_, fun id i hdone => ?_⟩
  · obtain ⟨⟨_, hstep⟩, hindexed', a, htree', hkept, hanswers'⟩ := hs.arrangement_after hquiet ht
      hopen hrestore hactive (.push i) trivial (fun _ => trivial) depth
    rw [show ((runStep (.source (.push i))).run (emit depth) s).1 = _ from hdone] at hstep
    obtain ⟨hitems, hbinding⟩ := hstep.of_push
    have hmore := hindexed.oneMore hindexed' (List.append_nil _).symm hitems t.properties
    have hlast := (congrArg (List.map Item.id) hitems).trans List.map_append
    exact ⟨_, hanswers' hbinding, exists_parts_of_sublist
      (Arrangement.rows_view_sublist htree htree' hkept hlast hmore)
      (hcoherent.rows_view_perm htree htree' hkept hmore)⟩
  · obtain ⟨⟨_, hstep⟩, hindexed', a, htree', hkept, hanswers'⟩ := hs.arrangement_after hquiet ht
      hopen hrestore hactive (.insert position i) trivial (fun _ => trivial) depth
    rw [show ((runStep (.source (.insert position i))).run (emit depth) s).1 = _ from hdone]
      at hstep
    obtain ⟨⟨front, back, hitems, hitems'⟩, hbinding⟩ := hstep.of_insert
    exact ⟨_, hanswers' hbinding, hcoherent.rows_view_perm htree htree' hkept
      (hindexed.oneMore hindexed' hitems hitems' t.properties)⟩
  · obtain ⟨⟨_, hstep⟩, hindexed', a, htree', hkept, hanswers'⟩ := hs.arrangement_after hquiet ht
      hopen hrestore hactive (.remove id) trivial (fun _ => trivial) depth
    rw [show ((runStep (.source (.remove id))).run (emit depth) s).1 = _ from hdone] at hstep
    obtain ⟨rfl, ⟨front, back, hitems', hitems⟩, hbinding⟩ := hstep.of_remove
    exact ⟨_, hanswers' hbinding, Arrangement.rows_view_perm_filter htree htree' hkept
      (hindexed'.oneMore hindexed hitems' hitems t.properties)⟩

/-- An item of a new kind brings the header of its kind along, last and closed, though all groups
are open. -/
theorem one_item_moves_one_row_of_new_group :
    let outer := GroupPath.root "kind" .absent
    let new := GroupPath.root "kind" .null
    let rows : List Row := [.group outer, .group (outer.child "size" .absent), .item (.number 1)]
    let s := (runAll 0 [
      .openTable (.changes [.properties ["kind", "size"]]),
      .table 0 .expandAll] (start [⟨.number 1, .empty⟩])).2
    let pushed := (runStep (.source (.push ⟨.number 2, .ofList [("kind", .null)]⟩))).run (emit 0) s
    ∃ v v', s.AnswersBy 0 0 v ∧ pushed.2.AnswersBy 0 0 v' ∧ v.rows = rows ∧
      v'.rows = rows ++ [.group new] ∧
      Row.arriving v.isGroup v.isOpen (v'.pathOf (.number 2)) (.number 2) = some (.group new) := by
  intro outer new rows s pushed
  let steps : List Step := [
    .openTable (.changes [.properties ["kind", "size"]]), .table 0 .expandAll]
  have hp : Playable FairListUse (· ∈ steps) := by
    refine ⟨fun s step hstep => ?_, fun name channel script times hstep => ?_⟩
    · simp only [steps, List.mem_cons, List.not_mem_nil, or_false] at hstep
      rcases hstep with rfl | rfl
      · exact ⟨trivial, fun _ he => Step.noConfusion he⟩
      · exact ⟨trivial, fun _ he => Step.noConfusion he⟩
    · simp [steps] at hstep
  have hs : Reaches FairListUse ⟨start _, []⟩ ⟨s, []⟩ :=
    reaches_runAll hp 0 (fun _ hstep => hstep) fun l hl => absurd hl List.not_mem_nil
  obtain ⟨t, ht, hopen, hrestore, hstale, hactive⟩ : ∃ t, s.table? 0 = some t ∧
      s.isOpen 0 = true ∧ t.settings.restoreExpansion = true ∧ t.stale = false ∧
      s.source.isActive = true := ⟨_, rfl, rfl, rfl, rfl, rfl⟩
  obtain ⟨v, hv, hpush, -, -⟩ := one_item_moves_one_row hs
    (fun l hl => absurd hl List.not_mem_nil) ht hopen hrestore hstale hactive 0
  obtain ⟨v', hv', before, after, hrows, hrows'⟩ :=
    hpush ⟨.number 2, .ofList [("kind", .null)]⟩ rfl
  have hbefore : Answer.rows v.rows = .rows rows :=
    hv.rows.symm.trans (Answer.eq_rows (by decide +kernel))
  have hafter : Answer.rows v'.rows = .rows (rows ++ [.group new]) :=
    hv'.rows.symm.trans (Answer.eq_rows (by decide +kernel))
  rw [Answer.rows.injEq] at hbefore hafter
  refine ⟨v, v', hv, hv', hbefore, hafter, ?_⟩
  have hperm : (rows ++ [Row.group new]).Perm
      (rows ++ (Row.arriving v.isGroup v.isOpen (v'.pathOf (.number 2)) (.number 2)).toList) := by
    rw [← hafter, ← hbefore, hrows, hrows', List.append_assoc, List.append_assoc]
    exact List.perm_append_comm.append_left before
  exact Option.mem_toList.1
    (((List.perm_append_left_iff rows).1 hperm).mem_iff.1 (List.mem_singleton_self _))

end Moment

end GroupedRows
