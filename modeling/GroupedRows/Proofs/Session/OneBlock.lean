import GroupedRows.Proofs.GroupTree.Blocks
import GroupedRows.Proofs.Session.Views

/-!
# Opening and closing one group

To open a group takes one block of rows in, right behind its header, and to close it takes
the block out again. Nothing else in the view of the table changes, so groups inside that
were open are found open, and what was visible is visible again.
-/

namespace GroupedRows

open Call Session

/-- The second view is the first one with one more group open. If all groups above it are open, and
only then, other rows are visible: a block of rows more, behind the header of the group, which is
not empty and has all the visible rows inside the group. -/
structure View.Opens (k : GroupPath) (v v' : View) : Prop where
  isGroup : v'.isGroup = v.isGroup
  itemIds : v'.itemIds = v.itemIds
  pathOf : v'.pathOf = v.pathOf
  isClosed : v.isOpen k = false
  isOpen : ∀ j, v'.isOpen j = (decide (j = k) || v.isOpen j)
  rows_ne_iff : v'.rows ≠ v.rows ↔ ∀ j, j.isAncestorOf k = true → v.isOpen j = true
  block : (∀ j, j.isAncestorOf k = true → v.isOpen j = true) →
    ∃ before block after, v'.rows = before ++ .group k :: (block ++ after) ∧
      v.rows = before ++ .group k :: after ∧ block ≠ [] ∧
      block = v'.rows.filter (Row.isInside k (v.itemIds k))

namespace Expansion

variable {e : Expansion} {j k : GroupPath}

/-- A closed group that is opened and closed again leaves the same groups open. -/
theorem mem_collapse_expand (h : k ∉ e) : j ∈ (e.expand k).collapse k ↔ j ∈ e := by
  rw [mem_collapse, mem_expand]
  constructor
  · rintro ⟨hjk, hj⟩
    exact hj.resolve_left hjk
  · intro hj
    refine ⟨?_, .inr hj⟩
    rintro rfl
    exact h hj

/-- An open group that is closed and opened again leaves the same groups open. -/
theorem mem_expand_collapse (h : k ∈ e) : j ∈ (e.collapse k).expand k ↔ j ∈ e := by
  rw [mem_expand, mem_collapse]
  constructor
  · rintro (rfl | hj)
    · exact h
    · exact hj.2
  · intro hj
    by_cases hjk : j = k
    · exact .inl hjk
    · exact .inr ⟨hjk, hj⟩

end Expansion

namespace Arrangement

variable {a b : Arrangement} {k : GroupPath}

/-- A group that is open in one arrangement and closed in another has its block of rows in one. The
block is not empty, so the rows differ if it is shown. -/
theorem Coherent.opens (h : a.Coherent) (htree : b.tree = a.tree)
    (hk : a.tree.contains k = true) (hclosed : k ∉ a.expansion)
    (hopen : ∀ j, j ∈ b.expansion ↔ j = k ∨ j ∈ a.expansion) : a.view.Opens k b.view := by
  have hkopen : k ∈ b.expansion := (hopen k).2 (.inl rfl)
  have hless : ∀ j, j ∈ a.expansion ↔ j ≠ k ∧ j ∈ b.expansion := by
    intro j
    rw [hopen]
    constructor
    · intro hj
      refine ⟨?_, .inr hj⟩
      rintro rfl
      exact hclosed hj
    · rintro ⟨hjk, hj⟩
      exact hj.resolve_left hjk
  have habove : ∀ j, j.isAncestorOf k = true →
      (j ∈ b.expansion ↔ a.expansion.contains j = true) := by
    intro j hj
    rw [Expansion.contains_iff, hless, and_iff_right]
    rintro rfl
    exact GroupPath.not_isAncestorOf_self j hj
  obtain ⟨items, lookup, hbuilt⟩ := h.built
  have hblock : (∀ j, j.isAncestorOf k = true → a.expansion.contains j = true) →
      ∃ before block after, b.view.rows = before ++ .group k :: (block ++ after) ∧
        a.view.rows = before ++ .group k :: after ∧ block ≠ [] ∧
        block = b.view.rows.filter (Row.isInside k (a.view.itemIds k)) := by
    intro hall
    unfold view
    dsimp only
    rw [htree]
    rw [hbuilt] at hk ⊢
    exact GroupTree.visibleRows_toggle_build hk hkopen hless fun j hj =>
      (habove j hj).2 (hall j hj)
  refine ⟨congrArg GroupTree.contains htree, congrArg GroupTree.allItems htree,
    congrArg GroupTree.pathOf htree, ?_, fun j => ?_, ?_, hblock⟩
  · rw [Bool.eq_false_iff]
    exact fun hk => hclosed (Expansion.contains_iff.1 hk)
  · change b.expansion.contains j = (decide (j = k) || a.expansion.contains j)
    rw [Bool.eq_iff_iff, Bool.or_eq_true, decide_eq_true_eq, Expansion.contains_iff,
      Expansion.contains_iff, hopen]
  · constructor
    · intro hne j hj
      by_contra hjopen
      refine hne ?_
      unfold view
      dsimp only
      rw [htree]
      rw [hbuilt] at hk ⊢
      exact (GroupTree.visibleRows_toggle_build_of_closed hk hless hj fun hje =>
        hjopen ((habove j hj).1 hje)).symm
    · intro hall heq
      obtain ⟨before, block, after, hb, ha, hne, -⟩ := hblock hall
      rw [hb, ha] at heq
      have hlength := congrArg List.length heq
      simp only [List.length_append, List.length_cons] at hlength
      have := List.length_pos_iff.2 hne
      omega

/-- A group is expanded if it is one and is open. -/
theorem isExpanded_iff : a.isExpanded k = true ↔ a.tree.contains k = true ∧ k ∈ a.expansion := by
  rw [isExpanded, Bool.and_eq_true, Expansion.contains_iff]

/-- A group can be expanded if it is one and is closed. -/
theorem canExpand_iff : a.canExpand k = true ↔ a.tree.contains k = true ∧ k ∉ a.expansion := by
  rw [canExpand, Bool.and_eq_true, Bool.not_eq_true', Bool.eq_false_iff, ne_eq,
    Expansion.contains_iff]

/-- To open a group shows its block of rows. -/
theorem Coherent.opens_expand (h : a.Coherent) (hk : a.canExpand k = true) :
    a.view.Opens k (a.expand k).view :=
  h.opens rfl (canExpand_iff.1 hk).1 (canExpand_iff.1 hk).2 fun _ => Expansion.mem_expand

/-- To close a group hides its block of rows. -/
theorem Coherent.opens_collapse (h : a.Coherent) (hk : a.isExpanded k = true) :
    (a.collapse k).view.Opens k a.view := by
  obtain ⟨hgroup, hopen⟩ := isExpanded_iff.1 hk
  refine (h.alters (.collapse k)).opens rfl hgroup
    (fun h => (Expansion.mem_collapse.1 h).1 rfl) fun j => ?_
  exact (Expansion.mem_expand_collapse hopen).symm.trans Expansion.mem_expand

end Arrangement

namespace Session.Calm

variable {s : Session} {c : TableId} {t : Table} {depth : Nat}

/-- A step that opens or closes groups leaves a calm table that answers accordingly. -/
theorem toggle (h : s.Calm c t) (hcoherent : t.arrangement.Coherent) (hstale : t.stale = false)
    (hactive : s.source.isActive = true) (depth : Nat) (test : Arrangement → Bool)
    (f : Arrangement → Arrangement) {n : Notice} (hn : n.channel.table? = some c)
    (htest : test t.arrangement = true) (halters : t.arrangement.Alters (f t.arrangement)) :
    let step := calling c (do return .flag (← Session.switch c test f n))
    let result := step.run (Session.emit depth) s
    result.1 = .flag true ∧ result.2.source = s.source ∧
      result.2.Calm c { t with arrangement := f t.arrangement } ∧
      result.2.AnswersBy depth c (f t.arrangement).view := by
  intro step result
  obtain ⟨hanswer, hsource, hcalm, -, -⟩ := h.switchStep hstale depth test f hn
  rw [htest] at hanswer
  rw [if_pos htest] at hcalm
  have hanswers := hcalm.answersBy (hcoherent.alters halters) (hsource ▸ hactive) depth
  rw [Table.synced, hstale, if_neg Bool.false_ne_true] at hanswers
  exact ⟨hanswer, hsource, hcalm, hanswers⟩

/-- If the second of two such steps undoes the first, the table answers as before. -/
theorem toggle_toggle (h : s.Calm c t) (hcoherent : t.arrangement.Coherent)
    (hstale : t.stale = false) (hactive : s.source.isActive = true) (depth : Nat)
    (test test' : Arrangement → Bool) (f f' : Arrangement → Arrangement) {n m : Notice}
    (hn : n.channel.table? = some c) (hm : m.channel.table? = some c)
    (htest : test t.arrangement = true) (halters : t.arrangement.Alters (f t.arrangement))
    (htest' : test' (f t.arrangement) = true)
    (halters' : (f t.arrangement).Alters (f' (f t.arrangement)))
    (hopen : ∀ j, j ∈ (f' (f t.arrangement)).expansion ↔ j ∈ t.arrangement.expansion) :
    let step := calling c (do return .flag (← Session.switch c test f n))
    let back := calling c (do return .flag (← Session.switch c test' f' m))
    let result := step.run (Session.emit depth) s
    result.2.AnswersBy depth c (f t.arrangement).view ∧
      (back.run (Session.emit depth) result.2).1 = .flag true ∧
      (back.run (Session.emit depth) result.2).2.AnswersBy depth c t.arrangement.view := by
  intro step back result
  obtain ⟨-, hsource, hcalm, hanswers⟩ :=
    h.toggle hcoherent hstale hactive depth test f hn htest halters
  obtain ⟨hback, -, -, hanswers'⟩ := hcalm.toggle (hcoherent.alters halters) hstale
    (hsource ▸ hactive) depth test' f' hm htest' halters'
  have htree := halters'.tree_eq.trans halters.tree_eq
  exact ⟨hanswers, hback, hcoherent.view_congr htree hopen ▸ hanswers'⟩

end Session.Calm

namespace Moment

/-- Take an open table over an active source, at any moment when it has no pending change and nobody
acts, and any path. To open the path answers whether it names a closed group, and to close it
answers whether it names an open one. If not, nothing changes and nothing is sent. If it does, the
table then answers by a view in which this group alone has been opened or closed: if all groups
above it are open, one block of rows has come in or gone out behind its header, and otherwise the
same rows are visible. The opposite step leads back to the old view, nested groups included. -/
theorem toggling_moves_one_block {store : ItemStore} {log : List LogRecord} {m : Moment}
    (h : Reaches AnyStep ⟨ofStore store log, []⟩ m) (hquiet : m.session.Quiet) {c : TableId}
    {t : Table} (ht : m.session.table? c = some t) (hopen : m.session.isOpen c = true)
    (hstale : t.stale = false) (hactive : m.session.source.isActive = true) (k : GroupPath)
    (depth : Nat) :
    let s := m.session
    let expand := runStep (.table c (.expand k))
    let collapse := runStep (.table c (.collapse k))
    let opened := expand.run (emit depth) s
    let closed := collapse.run (emit depth) s
    ∃ v, s.AnswersBy depth c v ∧
      opened.1 = .flag (v.isGroup k && !v.isOpen k) ∧
      closed.1 = .flag (v.isGroup k && v.isOpen k) ∧
      (opened.1 = .flag false → opened.2 = s ∧ expand.sent (emit depth) s = []) ∧
      (closed.1 = .flag false → closed.2 = s ∧ collapse.sent (emit depth) s = []) ∧
      (opened.1 = .flag true → ∃ v', opened.2.AnswersBy depth c v' ∧ v.Opens k v' ∧
        (collapse.run (emit depth) opened.2).1 = .flag true ∧
        (collapse.run (emit depth) opened.2).2.AnswersBy depth c v) ∧
      (closed.1 = .flag true → ∃ v', closed.2.AnswersBy depth c v' ∧ v'.Opens k v ∧
        (expand.run (emit depth) closed.2).1 = .flag true ∧
        (expand.run (emit depth) closed.2).2.AnswersBy depth c v) := by
  intro s expand collapse opened closed
  obtain ⟨hcalm, hcoherent⟩ := h.calm hquiet ht hopen
  have hsynced : t.synced s.source = t := if_neg (Bool.eq_false_iff.1 hstale)
  have hanswers := hcalm.answersBy hcoherent hactive depth
  rw [hsynced] at hanswers
  obtain ⟨hanswerOpen, -, -, hsameOpen, hsentOpen⟩ :=
    hcalm.switchStep hstale depth (·.canExpand k) (·.expand k) (n := .expanded c k) rfl
  obtain ⟨hanswerClose, -, -, hsameClose, hsentClose⟩ :=
    hcalm.switchStep hstale depth (·.isExpanded k) (·.collapse k) (n := .collapsed c k) rfl
  refine ⟨_, hanswers, hanswerOpen, hanswerClose, fun hfalse => ?_, fun hfalse => ?_,
    fun htrue => ?_, fun htrue => ?_⟩
  · have hnot : t.arrangement.canExpand k = false := Answer.flag.inj (hanswerOpen.symm.trans hfalse)
    rw [hnot, if_neg Bool.false_ne_true] at hsentOpen
    exact ⟨hsameOpen hnot, hsentOpen⟩
  · have hnot : t.arrangement.isExpanded k = false :=
      Answer.flag.inj (hanswerClose.symm.trans hfalse)
    rw [hnot, if_neg Bool.false_ne_true] at hsentClose
    exact ⟨hsameClose hnot, hsentClose⟩
  · have hk : t.arrangement.canExpand k = true := Answer.flag.inj (hanswerOpen.symm.trans htrue)
    obtain ⟨hgroup, hclosed⟩ := Arrangement.canExpand_iff.1 hk
    have hk' : (t.arrangement.expand k).isExpanded k = true :=
      Arrangement.isExpanded_iff.2 ⟨hgroup, Expansion.mem_expand.2 (.inl rfl)⟩
    obtain ⟨hopened, hback, hagain⟩ := hcalm.toggle_toggle hcoherent hstale hactive depth
      (·.canExpand k) (·.isExpanded k) (·.expand k) (·.collapse k) (n := .expanded c k)
      (m := .collapsed c k) rfl rfl hk (.expand k hk) hk' (.collapse k) fun _ =>
        Expansion.mem_collapse_expand hclosed
    exact ⟨_, hopened, hcoherent.opens_expand hk, hback, hagain⟩
  · have hk : t.arrangement.isExpanded k = true := Answer.flag.inj (hanswerClose.symm.trans htrue)
    obtain ⟨hgroup, hopen⟩ := Arrangement.isExpanded_iff.1 hk
    have hk' : (t.arrangement.collapse k).canExpand k = true :=
      Arrangement.canExpand_iff.2 ⟨hgroup, fun h => (Expansion.mem_collapse.1 h).1 rfl⟩
    obtain ⟨hclosed, hback, hagain⟩ := hcalm.toggle_toggle hcoherent hstale hactive depth
      (·.isExpanded k) (·.canExpand k) (·.collapse k) (·.expand k) (n := .collapsed c k)
      (m := .expanded c k) rfl rfl hk (.collapse k) hk' (.expand k hk') fun _ =>
        Expansion.mem_expand_collapse hopen
    exact ⟨_, hclosed, hcoherent.opens_collapse hk, hback, hagain⟩

/-- Closing the outer of two open groups hides the inner one, and opening it again shows the inner
one open. -/
theorem toggling_moves_block_with_open_group :
    let outer := GroupPath.root "kind" .absent
    let s := (runAll 0 [
      .openTable (.changes [.properties ["kind", "size"]]),
      .table 0 .expandAll] (start [⟨.number 1, .empty⟩])).2
    let ask (s : Session) := ((runStep (.askTable 0 .rows)).run (emit 0) s).1
    let closed := (runStep (.table 0 (.collapse outer))).run (emit 0) s
    let again := ((runStep (.table 0 (.expand outer))).run (emit 0) closed.2).2
    ask s = .rows [.group outer, .group (outer.child "size" .absent), .item (.number 1)] ∧
      closed.1 = .flag true ∧ ask closed.2 = .rows [.group outer] ∧ ask again = ask s := by
  intro outer s ask closed again
  have hs : Reaches AnyStep ⟨start _, []⟩ ⟨s, []⟩ := reaches_runAll_ofStore _ _ 0 _
  obtain ⟨t, ht, hopen, hstale, hactive⟩ : ∃ t, s.table? 0 = some t ∧ s.isOpen 0 = true ∧
      t.stale = false ∧ s.source.isActive = true := ⟨_, rfl, rfl, rfl, rfl⟩
  have hclosed : closed.1 = .flag true := rfl
  obtain ⟨v, hv, -, -, -, -, -, hback⟩ := toggling_moves_one_block hs
    (fun l hl => absurd hl List.not_mem_nil) ht hopen hstale hactive outer 0
  obtain ⟨-, -, -, -, hagain⟩ := hback hclosed
  exact ⟨Answer.eq_rows (by decide +kernel), hclosed, Answer.eq_rows (by decide +kernel),
    hagain.rows.trans hv.rows.symm⟩

end Moment

end GroupedRows
