import GroupedRows.Proofs.GroupTree.ShownRows
import GroupedRows.Proofs.Session.OneBlock

/-!
# Revealing an item

To reveal an item, the groups around it are opened one after the other, from the root down.
Each of these steps looks at the table anew, but none changes the tree, so together they
open the path that was read before the first of them.
-/

namespace GroupedRows

open Call Session

/-- The second view is the first one with the groups around an item open as well, and nothing that
was visible is lost. The groups around the item are listed root first. -/
structure View.Reveals (id : ItemId) (v v' : View) : Prop where
  isGroup : v'.isGroup = v.isGroup
  itemIds : v'.itemIds = v.itemIds
  pathOf : v'.pathOf = v.pathOf
  isOpen_iff : ∀ k, v'.isOpen k = true ↔ v.isOpen k = true ∨ k ∈ v.pathOf id
  rows : v.rows.Sublist v'.rows
  rootFirst : (v.pathOf id).Pairwise fun j k => j.isAncestorOf k = true

namespace Session.Calm

variable {s : Session} {c : TableId} {t : Table}

/-- The second table is the first one with the groups of a path open, and fits together too. -/
structure OpensPath (path : List GroupPath) (t t' : Table) : Prop where
  stale : t'.stale = false
  coherent : t'.arrangement.Coherent
  tree : t'.tree = t.tree
  open_iff : ∀ k, k ∈ t'.arrangement.expansion ↔ k ∈ path ∨ k ∈ t.arrangement.expansion

/-- After a group has been opened it is open, whether it was before or not. -/
theorem expand (h : s.Calm c t) (hcoherent : t.arrangement.Coherent) (hstale : t.stale = false)
    {k : GroupPath} (hk : t.tree.contains k = true) (depth : Nat) :
    let call := Session.expand c k
    let result := call.run (Session.emit depth) s
    let closed := !t.arrangement.expansion.contains k
    result.1 = closed ∧ result.2.source = s.source ∧ (closed = false → result.2 = s) ∧
      call.sent (Session.emit depth) s = (if closed then [.expanded c k, .layout c] else []) ∧
      ∃ t', result.2.Calm c t' ∧ OpensPath [k] t t' := by
  intro call result closed
  have hclosed : t.arrangement.canExpand k = closed := by
    rw [Arrangement.canExpand, show t.arrangement.tree.contains k = true from hk, Bool.true_and]
  obtain ⟨hanswer, hsource, hcalm, hsame, hsent⟩ :=
    h.switch hstale depth (·.canExpand k) (·.expand k) (n := .expanded c k) rfl
  rw [← expand_eq_switch, hclosed] at hanswer hsame hsent
  refine ⟨hanswer, hsource, hsame, hsent, _, hcalm, ?_⟩
  split
  · rename_i hcan
    exact ⟨hstale, hcoherent.alters (.expand k hcan), rfl, fun j => by
      rw [List.mem_singleton]
      exact Expansion.mem_expand⟩
  · rename_i hcan
    refine ⟨hstale, hcoherent, rfl, fun j => ?_⟩
    rw [List.mem_singleton, or_iff_right_of_imp]
    rintro rfl
    by_contra hj
    exact hcan (Arrangement.canExpand_iff.2 ⟨hk, hj⟩)

/-- Opening one group after the other opens those that are closed and announces each of them: to
open one does not change which of the others are closed. -/
theorem expandEach (h : s.Calm c t) (hcoherent : t.arrangement.Coherent)
    (hstale : t.stale = false) {path : List GroupPath}
    (hpath : ∀ k ∈ path, t.tree.contains k = true) (hnodup : path.Nodup) (depth : Nat) :
    let call := Session.expandEach c path
    let result := call.run (Session.emit depth) s
    let closed := path.filter fun k => !t.arrangement.expansion.contains k
    result.1 = !closed.isEmpty ∧ result.2.source = s.source ∧ (closed = [] → result.2 = s) ∧
      call.sent (Session.emit depth) s = closed.flatMap (fun k => [.expanded c k, .layout c]) ∧
      ∃ t', result.2.Calm c t' ∧ OpensPath path t t' := by
  induction path generalizing s t with
  | nil =>
    exact ⟨rfl, rfl, fun _ => rfl, rfl, t, h, hstale, hcoherent, rfl, fun k => by simp⟩
  | cons k rest ih =>
    intro call result closed
    obtain ⟨hk, hrest⟩ := List.nodup_cons.1 hnodup
    obtain ⟨hanswer, hsource, hsame, hsent, t₁, hcalm₁, hopened₁⟩ :=
      h.expand hcoherent hstale (hpath k List.mem_cons_self) depth
    obtain ⟨hothers, hsource', hsame', hsent', t', hcalm', hopened'⟩ :=
      ih hcalm₁ hopened₁.coherent hopened₁.stale
        (fun j hj => hopened₁.tree ▸ hpath j (List.mem_cons_of_mem _ hj)) hrest
    have hclosed : rest.filter (fun j => !t₁.arrangement.expansion.contains j) =
        rest.filter fun j => !t.arrangement.expansion.contains j := by
      refine List.filter_congr fun j hj => congrArg not ?_
      rw [Bool.eq_iff_iff, Expansion.contains_iff, Expansion.contains_iff, hopened₁.open_iff,
        List.mem_singleton, or_iff_right]
      rintro rfl
      exact hk hj
    rw [hclosed] at hothers hsame' hsent'
    have hresult : result = (!t.arrangement.expansion.contains k ||
        !(rest.filter fun j => !t.arrangement.expansion.contains j).isEmpty,
        ((Session.expandEach c rest).run (Session.emit depth)
          ((Session.expand c k).run (Session.emit depth) s).2).2) := by
      simp only [result, call, Session.expandEach, run_bind, run_pure, hanswer, hothers]
    have hsentAll : call.sent (Session.emit depth) s =
        (Session.expand c k).sent (Session.emit depth) s ++
          (Session.expandEach c rest).sent (Session.emit depth)
            ((Session.expand c k).run (Session.emit depth) s).2 := by
      simp only [call, Session.expandEach, sent_bind, sent_pure, List.append_nil]
    have hcons : closed = if !t.arrangement.expansion.contains k then
        k :: rest.filter fun j => !t.arrangement.expansion.contains j
        else rest.filter fun j => !t.arrangement.expansion.contains j := List.filter_cons
    rw [hresult, hsentAll, hsent, hsent', hcons]
    refine ⟨?_, hsource'.trans hsource, fun hnone => ?_, ?_, t', hcalm', hopened'.stale,
      hopened'.coherent, hopened'.tree.trans hopened₁.tree, fun j => ?_⟩
    · cases t.arrangement.expansion.contains k <;> rfl
    · cases hopen : t.arrangement.expansion.contains k with
      | false =>
        rw [hopen] at hnone
        exact absurd hnone (List.cons_ne_nil k _)
      | true =>
        rw [hopen] at hnone hsame
        exact (hsame' hnone).trans (hsame rfl)
    · cases t.arrangement.expansion.contains k <;> rfl
    · rw [hopened'.open_iff, hopened₁.open_iff, List.mem_singleton, List.mem_cons, or_left_comm,
        or_assoc]

/-- To reveal an item applies a pending change and opens the groups around the item. -/
theorem expandToItem (h : s.Calm c t) (hcoherent : t.arrangement.Coherent) (id : ItemId)
    (depth : Nat) :
    let step := runStep (.table c (.expandToItem id))
    let result := step.run (Session.emit depth) s
    let synced := t.synced s.source
    let closed := (synced.tree.pathOf id).filter fun k => !synced.arrangement.expansion.contains k
    result.1 = .flag (!closed.isEmpty) ∧ result.2.source = s.source ∧
      (t.stale = false → closed = [] → result.2 = s) ∧
      step.sent (Session.emit depth) s = (if t.stale then [.layout c] else []) ++
        closed.flatMap (fun k => [.expanded c k, .layout c]) ∧
      ∃ t', result.2.Calm c t' ∧ OpensPath (synced.tree.pathOf id) synced t' := by
  intro step result synced closed
  have hsyncedCoherent : synced.arrangement.Coherent := Table.coherent_synced hcoherent s.source
  obtain ⟨hsource₁, hcalm₁, hsame₁, hsent₁⟩ := h.enter.sync depth
  have htree : ((Session.sync c).run (Session.emit depth) (s.enter c)).2.tree c = synced.tree := by
    rw [Session.tree, hcalm₁.table]
    rfl
  have hpath : ∀ k ∈ synced.tree.pathOf id, synced.tree.contains k = true := by
    obtain ⟨items, lookup, hbuilt⟩ := hsyncedCoherent.built
    unfold Table.tree
    rw [hbuilt]
    exact fun k => GroupTree.contains_of_mem_pathOf_build
  have hnodup : (synced.tree.pathOf id).Nodup := by
    obtain ⟨items, lookup, hbuilt⟩ := hsyncedCoherent.built
    unfold Table.tree
    rw [hbuilt]
    exact GroupTree.nodup_pathOf_build _ _ _ id
  obtain ⟨hanswer, hsource₂, hsame₂, hsent₂, t', hcalm', hopens⟩ :=
    hcalm₁.expandEach hsyncedCoherent (Table.stale_synced t s.source) hpath hnodup depth
  obtain ⟨hsource₃, hleft⟩ := hcalm'.leave
  have hresult : result = (.flag (!closed.isEmpty),
      ((Session.expandEach c (synced.tree.pathOf id)).run (Session.emit depth)
        ((Session.sync c).run (Session.emit depth) (s.enter c)).2).2.leave c) := by
    simp only [result, step, runStep, h.run_calling, runTable, Session.expandToItem, run_bind,
      run_read, run_pure, htree]
    exact congrArg (fun b => (Answer.flag b, _)) hanswer
  rw [hresult]
  refine ⟨rfl, hsource₃.trans (hsource₂.trans hsource₁), fun hstale hclosed => ?_, ?_, t', hleft,
    hopens⟩
  · rw [hsame₂ hclosed, hsame₁ hstale, leave_enter h.isOpen]
  · simp only [step, runStep, h.sent_calling, runTable, Session.expandToItem, sent_bind, sent_read,
      run_read, sent_pure, htree, hsent₁, List.nil_append, List.append_nil]
    exact congrArg (_ ++ ·) hsent₂

end Session.Calm

/-- Opening the groups around an item reveals it in the view. -/
theorem Session.Calm.OpensPath.reveals {t t' : Table} {id : ItemId}
    (h : OpensPath (t.tree.pathOf id) t t') (hcoherent : t.arrangement.Coherent) :
    t.arrangement.view.Reveals id t'.arrangement.view := by
  have htree : t'.arrangement.tree = t.arrangement.tree := h.tree
  obtain ⟨items, lookup, hbuilt⟩ := hcoherent.built
  refine ⟨congrArg GroupTree.contains htree, congrArg GroupTree.allItems htree,
    congrArg GroupTree.pathOf htree, fun k => ?_, ?_, ?_⟩
  · change t'.arrangement.expansion.contains k = true ↔
      t.arrangement.expansion.contains k = true ∨ k ∈ t.tree.pathOf id
    rw [Expansion.contains_iff, Expansion.contains_iff, h.open_iff, or_comm]
  · unfold Arrangement.view
    dsimp only
    rw [htree, hbuilt]
    exact GroupTree.visibleRows_build_mono fun k hk => (h.open_iff k).2 (.inr hk)
  · unfold Arrangement.view
    dsimp only
    rw [hbuilt]
    exact GroupTree.pairwise_pathOf_build _ _ _ id

namespace Arrangement

variable {a : Arrangement} {source : Source} {properties : List String} {id : ItemId}

/-- An arrangement of the present items shows an item if the source has it and all groups around it
are open. -/
theorem item_mem_rows_view (h : a.tree = source.tree properties) :
    .item id ∈ a.view.rows ↔
      id ∈ source.store.ids ∧ ∀ k ∈ a.tree.pathOf id, k ∈ a.expansion := by
  unfold view
  rw [h]
  exact GroupTree.item_mem_visibleRows_build

/-- So a group around an item is closed exactly if the source has the item and does not show it. -/
theorem exists_closed_iff (h : a.tree = source.tree properties) :
    (∃ k ∈ a.tree.pathOf id, k ∉ a.expansion) ↔
      id ∈ source.store.ids ∧ .item id ∉ a.view.rows := by
  rw [item_mem_rows_view h]
  constructor
  · rintro ⟨k, hk, hclosed⟩
    rw [h] at hk
    exact ⟨GroupTree.mem_of_mem_pathOf_build hk, fun hall => hclosed (hall.2 k (h ▸ hk))⟩
  · rintro ⟨hid, hhidden⟩
    by_contra hnone
    refine hhidden ⟨hid, fun k hk => ?_⟩
    by_contra hclosed
    exact hnone ⟨k, hk, hclosed⟩

end Arrangement

namespace Moment

/-- Take a session at rest in which nobody acts, whatever fair code outside has done before, and in
it an open table over an active source, grouped or not and with or without a pending change. To
reveal an item answers whether the source has the item and it is not visible. After that it is
visible if the source has it, the groups around it are open besides those that were open, and all
that was visible is visible in the same order. The groups that were closed have been announced, each
once and root first. To reveal the item again answers no, changes nothing and sends nothing. -/
theorem revealing_opens_path {store : ItemStore} {log : List LogRecord} {s : Session}
    (hs : Reaches Fair ⟨ofStore store log, []⟩ ⟨s, []⟩) (hquiet : s.Quiet) {c : TableId} {t : Table}
    (ht : s.table? c = some t) (hopen : s.isOpen c = true) (hactive : s.source.isActive = true)
    (id : ItemId) (depth : Nat) :
    let step := runStep (.table c (.expandToItem id))
    let result := step.run (emit depth) s
    ∃ v v', s.AnswersBy depth c v ∧ result.2.AnswersBy depth c v' ∧ v.Reveals id v' ∧
      (∃ changed, result.1 = .flag changed ∧
        (changed = true ↔ id ∈ s.source.store.ids ∧ .item id ∉ v.rows)) ∧
      (.item id ∈ v'.rows ↔ id ∈ s.source.store.ids) ∧
      step.sent (emit depth) s = (if t.stale then [.layout c] else []) ++
        ((v.pathOf id).filter fun k => !v.isOpen k).flatMap
          (fun k => [.expanded c k, .layout c]) ∧
      step.run (emit depth) result.2 = (.flag false, result.2) ∧
      step.sent (emit depth) result.2 = [] := by
  intro step result
  obtain ⟨hcalm, hcoherent⟩ := hs.calm hquiet ht hopen
  have hpresent : (t.synced s.source).tree = s.source.tree t.properties := hs.tree_synced ht hopen
  have hsyncedCoherent := Table.coherent_synced hcoherent s.source
  obtain ⟨hanswer, hsource, -, hsent, t', hcalm', hopens⟩ := hcalm.expandToItem hcoherent id depth
  have hreveals := hopens.reveals hsyncedCoherent
  have hsynced' : t'.synced result.2.source = t' := by
    rw [Table.synced, hopens.stale, if_neg Bool.false_ne_true]
  have hanswers := hcalm.answersBy hcoherent hactive depth
  have hanswers' := hcalm'.answersBy hopens.coherent (hsource ▸ hactive) depth
  obtain ⟨hagain, -, hsame, hsent', -⟩ := hcalm'.expandToItem hopens.coherent id depth
  rw [hsynced'] at hanswers' hagain hsame hsent'
  have hnone : (t'.tree.pathOf id).filter (fun k => !t'.arrangement.expansion.contains k) = [] := by
    rw [List.filter_eq_nil_iff, hopens.tree]
    intro k hk
    rw [Expansion.contains_iff.2 ((hopens.open_iff k).2 (.inl hk))]
    exact Bool.false_ne_true
  rw [hnone] at hagain hsent'
  refine ⟨_, _, hanswers, hanswers', hreveals, ⟨_, hanswer, ?_⟩, ?_, hsent, ?_, ?_⟩
  · rw [← Arrangement.exists_closed_iff hpresent, Bool.not_eq_true',
      List.isEmpty_eq_false_iff_exists_mem]
    simp only [List.mem_filter, Bool.not_eq_true', Bool.eq_false_iff, ne_eq, Expansion.contains_iff]
    rfl
  · rw [Arrangement.item_mem_rows_view (hopens.tree.trans hpresent), and_iff_left]
    intro k hk
    exact (hopens.open_iff k).2 (.inl (hopens.tree ▸ hk))
  · exact Prod.ext hagain (hsame hopens.stale hnone)
  · rw [hsent', hopens.stale, if_neg Bool.false_ne_true]
    rfl

/-- An open group in a closed one gets a second item, which is revealed by opening the outer group,
once the pending change has been applied. -/
theorem revealing_opens_path_of_pushed_item :
    let outer := GroupPath.root "kind" .absent
    let inner := outer.child "size" .absent
    let s := (runAll 0 [
      .openTable (.changes [.properties ["kind", "size"]]),
      .table 0 .expandAll,
      .table 0 (.collapse outer),
      .source (.push ⟨.number 2, .empty⟩)] (start [⟨.number 1, .empty⟩])).2
    let step := runStep (.table 0 (.expandToItem (.number 2)))
    let result := step.run (emit 0) s
    result.1 = .flag true ∧
      step.sent (emit 0) s = [.layout 0, .expanded 0 outer, .layout 0] ∧
      ((runStep (.askTable 0 .rows)).run (emit 0) result.2).1 =
        .rows [.group outer, .group inner, .item (.number 1), .item (.number 2)] ∧
      step.run (emit 0) result.2 = (.flag false, result.2) := by
  intro outer inner s step result
  have hs : Reaches Fair ⟨start _, []⟩ ⟨s, []⟩ :=
    reaches_runAll playable_alwaysFair 0 (allFair_iff.1 rfl) fun l hl => absurd hl List.not_mem_nil
  have hopen : s.isOpen 0 = true := by decide +kernel
  have hactive : s.source.isActive = true := by decide +kernel
  obtain ⟨t, ht⟩ := exists_table_of_isOpen hopen
  obtain ⟨v, v', hv, -, -, ⟨changed, hanswer, hchanged⟩, -, -, hagain, -⟩ :=
    revealing_opens_path hs (quiet_of_isEmpty (by decide +kernel)) ht hopen hactive (.number 2) 0
  have hrows : Answer.rows v.rows = .rows [.group outer] :=
    hv.rows.symm.trans (Answer.eq_rows (by decide +kernel))
  have htrue : changed = true := by
    rw [hchanged, Answer.rows.inj hrows]
    exact ⟨by decide +kernel, by decide⟩
  exact ⟨htrue ▸ hanswer, by decide +kernel, Answer.eq_rows (by decide +kernel), hagain⟩

end Moment

end GroupedRows
