import GroupedRows.Proofs.Session.CancelledChanges
import GroupedRows.Proofs.VisibleRows

/-!
# What a table tells

In a session in which nobody acts, a table tells its visible rows, its groups, which of them
are open, and which items belong to them. Steps on the table change this view and send
notices; what they send is what they announce, whoever hears of it.
-/

namespace GroupedRows

open Call Session

variable {α β : Type}

/-! ## Sent notices -/

/-- The notices that are sent until the course ends if `emit` sends them. -/
def Course.sent (emit : Emit) : Course α → List Notice
  | ended _ _ => []
  | sends n s rest => n :: (rest (emit n s)).sent emit

/-- A course sends its notices, and then those of the course that goes on. -/
theorem Course.sent_andThen (emit : Emit) (f : α → Session → Course β) (c : Course α) :
    (c.andThen f).sent emit =
      c.sent emit ++ (f (c.finish emit).1 (c.finish emit).2).sent emit := by
  induction c with
  | ended answer s => rfl
  | sends n s rest ih => exact congrArg (n :: ·) (ih (emit n s))

namespace Call

/-- The notices that a call sends. -/
def sent (emit : Emit) (m : Call α) (s : Session) : List Notice := (m.start s).sent emit

@[simp] theorem sent_pure (emit : Emit) (answer : α) (s : Session) :
    sent emit (pure answer) s = [] := rfl

@[simp] theorem sent_bind (emit : Emit) (m : Call α) (f : α → Call β) (s : Session) :
    sent emit (m >>= f) s = sent emit m s ++ sent emit (f (run emit m s).1) (run emit m s).2 :=
  Course.sent_andThen emit _ (m.start s)

@[simp] theorem sent_read (emit : Emit) (s : Session) : sent emit read s = [] := rfl

@[simp] theorem sent_change (emit : Emit) (f : Session → Session) (s : Session) :
    sent emit (change f) s = [] := rfl

@[simp] theorem sent_send (emit : Emit) (n : Notice) (s : Session) :
    sent emit (send n) s = [n] := rfl

end Call

/-! ## Views -/

/-- The rows of an answer that lists rows. -/
def Answer.rows? : Answer → Option (List Row)
  | .rows l => some l
  | _ => none

/-- An answer with rows is the answer of these rows. -/
theorem Answer.eq_rows {a : Answer} {l : List Row} (h : a.rows? = some l) : a = .rows l := by
  unfold rows? at h
  split at h
  · exact congrArg Answer.rows (Option.some.inj h)
  · exact absurd h.symm (Option.some_ne_none l)

/-- What a table tells. -/
structure View where
  /-- The visible rows. -/
  rows : List Row
  /-- Whether there is a group of a path. -/
  isGroup : GroupPath → Bool
  /-- Whether there is one and it is open. -/
  isOpen : GroupPath → Bool
  /-- The items at any level below a group. -/
  itemIds : GroupPath → List ItemId
  /-- The groups around an item, root first. -/
  pathOf : ItemId → List GroupPath

/-- The view of an arrangement over an active source. -/
def Arrangement.view (a : Arrangement) : View where
  rows := Snapshot.visibleRows a.tree a.expansion
  isGroup := a.tree.contains
  isOpen := a.expansion.contains
  itemIds := a.tree.allItems
  pathOf := a.tree.pathOf

/-- Arrangements of one tree in which the same groups are open have the same view. -/
theorem Arrangement.Coherent.view_congr {a b : Arrangement} (h : a.Coherent)
    (htree : b.tree = a.tree) (hopen : ∀ k, k ∈ b.expansion ↔ k ∈ a.expansion) :
    b.view = a.view := by
  have hcontains : b.expansion.contains = a.expansion.contains := by
    funext k
    rw [Bool.eq_iff_iff, Expansion.contains_iff, Expansion.contains_iff, hopen]
  have hrows : Snapshot.visibleRows a.tree b.expansion =
      Snapshot.visibleRows a.tree a.expansion := by
    obtain ⟨items, lookup, hbuilt⟩ := h.built
    rw [hbuilt]
    exact GroupTree.visibleRows_build_congr fun k _ => hopen k
  unfold view
  rw [htree, hcontains, hrows]

namespace Session

/-- Without listeners nobody acts. -/
theorem quiet_of_isEmpty {s : Session} (h : s.listeners.isEmpty = true) : s.Quiet := by
  intro l hl
  rw [List.isEmpty_iff.1 h] at hl
  exact absurd hl List.not_mem_nil

/-- An open table answers by this view. -/
structure AnswersBy (depth : Nat) (c : TableId) (s : Session) (v : View) : Prop where
  isOpen : s.isOpen c = true
  rows : ((runStep (.askTable c .rows)).run (emit depth) s).1 = .rows v.rows
  isGroup : ∀ k, ((runStep (.askTable c (.contains k))).run (emit depth) s).1 = .flag (v.isGroup k)
  isExpanded :
    ∀ k, ((runStep (.askTable c (.isExpanded k))).run (emit depth) s).1 = .flag (v.isOpen k)
  itemIds : ∀ k, ((runStep (.askTable c (.itemIds k))).run (emit depth) s).1 = .ids (v.itemIds k)
  pathOf : ∀ id, ((runStep (.askTable c (.pathOf id))).run (emit depth) s).1 =
    .groups (v.pathOf id)

namespace Calm

variable {s : Session} {c : TableId} {t : Table}

/-- Over an active source an open table tells the view of what it shows when it is synced. -/
theorem answersBy (h : s.Calm c t) (hcoherent : t.arrangement.Coherent)
    (hactive : s.source.isActive = true) (depth : Nat) :
    s.AnswersBy depth c (t.synced s.source).arrangement.view where
  isOpen := h.isOpen
  rows := by
    have hshown : t.shown s.source = (t.synced s.source).arrangement.look := if_pos hactive
    rw [h.answer_rows, hshown, (Table.coherent_synced hcoherent s.source).look_eq]
    rfl
  isGroup k := h.answer_askTree depth fun t => .flag (t.contains k)
  isExpanded := h.answer_isExpanded hcoherent depth
  itemIds k := h.answer_askTree depth fun t => .ids (t.allItems k)
  pathOf id := h.answer_askTree depth fun t => .groups (t.pathOf id)

/-! ## Steps on a table -/

/-- A step on an open table is the call that it makes while it is counted. -/
theorem run_calling (h : s.Calm c t) (emit : Emit) (call : Call Answer) :
    (calling c call).run emit s =
      ((call.run emit (s.enter c)).1, (call.run emit (s.enter c)).2.leave c) := by
  simp only [calling, run_bind, run_read, h.isOpen, if_true, run_change, run_pure]

/-- A call on a calm table sends its own notices only. -/
theorem sent_calling (h : s.Calm c t) (emit : Emit) (call : Call Answer) :
    (calling c call).sent emit s = call.sent emit (s.enter c) := by
  simp only [calling, sent_bind, sent_read, run_read, h.isOpen, if_true, sent_change, run_change,
    sent_pure, List.nil_append, List.append_nil]

/-- To rearrange a calm table leaves the source, and the table calm. -/
theorem rearrange (h : s.Calm c t) (f : Arrangement → Arrangement) :
    (s.rearrange c f).source = s.source ∧
      (s.rearrange c f).Calm c { t with arrangement := f t.arrangement } := by
  unfold Session.rearrange
  rw [h.table]
  exact ⟨rfl, (h.write _).modifyEntry (fun t => { t with arrangement := f t.arrangement })
    (fun _ => ⟨rfl, rfl⟩) fun _ => rfl⟩

/-- A pending change is applied, and that is announced; if there is none, nothing happens. -/
theorem sync (h : s.Calm c t) (depth : Nat) :
    let s' := ((Session.sync c).run (Session.emit depth) s).2
    s'.source = s.source ∧ s'.Calm c (t.synced s.source) ∧ (t.stale = false → s' = s) ∧
      (Session.sync c).sent (Session.emit depth) s = if t.stale then [.layout c] else [] := by
  intro s'
  cases hstale : t.stale with
  | false =>
    have hs' : s' = s := by
      simp only [s', run_sync h.table, hstale, Bool.false_eq_true, if_false]
    have hsynced : t.synced s.source = t := if_neg (Bool.eq_false_iff.1 hstale)
    rw [hs', hsynced]
    refine ⟨rfl, h, fun _ => rfl, ?_⟩
    simp only [Session.sync, sent_bind, sent_read, run_read, h.table, Option.any_some, hstale,
      Bool.false_eq_true, if_false, sent_pure, List.nil_append]
  | true =>
    obtain ⟨hsource, hcalm⟩ := (h.rebuild t.properties false).emit depth (n := .layout c) rfl
    have hs' : s' = Session.emit depth (.layout c) (s.rebuild c t.properties false) := by
      simp only [s', run_sync h.table, hstale, if_true]
    have hsynced : t.synced s.source = t.rebuilt s.source t.properties false := if_pos hstale
    rw [hs', hsynced]
    refine ⟨hsource.trans (source_rebuild ..), hcalm, fun h => absurd h.symm Bool.false_ne_true, ?_⟩
    simp only [Session.sync, Session.refresh, sent_bind, sent_read, run_read, h.table,
      Option.any_some, hstale, if_true, sent_change, sent_send, List.nil_append]

end Calm

/-- Opens or closes groups of a table if a test allows it, and announces it. -/
def switch (c : TableId) (test : Arrangement → Bool) (f : Arrangement → Arrangement) (n : Notice) :
    Call Bool := do
  sync c
  if ((← read).table? c).any fun t => test t.arrangement then
    change (rearrange c f)
    send n
    send (.layout c)
    return true
  else return false

/-- To open a group is to switch it. -/
theorem expand_eq_switch (c : TableId) (k : GroupPath) :
    expand c k = switch c (·.canExpand k) (·.expand k) (.expanded c k) := rfl

namespace Calm

variable {s : Session} {c : TableId} {t : Table}

/-- Without a pending change, groups are opened or closed if the test allows it, and that is
announced; otherwise nothing happens. -/
theorem switch (h : s.Calm c t) (hstale : t.stale = false) (depth : Nat)
    (test : Arrangement → Bool) (f : Arrangement → Arrangement) {n : Notice}
    (hn : n.channel.table? = some c) :
    let call := Session.switch c test f n
    let s' := (call.run (Session.emit depth) s).2
    let changed := test t.arrangement
    (call.run (Session.emit depth) s).1 = changed ∧ s'.source = s.source ∧
      s'.Calm c (if changed then { t with arrangement := f t.arrangement } else t) ∧
      (changed = false → s' = s) ∧
      call.sent (Session.emit depth) s = if changed then [n, .layout c] else [] := by
  intro call s' changed
  obtain ⟨-, -, hsync, hsent⟩ := h.sync depth
  rw [hstale, if_neg Bool.false_ne_true] at hsent
  cases htest : changed with
  | false =>
    have hrun : call.run (Session.emit depth) s = (false, s) := by
      simp only [call, Session.switch, run_bind, hsync hstale, run_read, h.table, Option.any_some,
        show test t.arrangement = false from htest, Bool.false_eq_true, if_false, run_pure]
    rw [show s' = s from congrArg Prod.snd hrun, hrun]
    refine ⟨rfl, rfl, h, fun _ => rfl, ?_⟩
    simp only [call, Session.switch, sent_bind, hsent, hsync hstale, sent_read, run_read, h.table,
      Option.any_some, show test t.arrangement = false from htest, Bool.false_eq_true, if_false,
      sent_pure, List.nil_append]
  | true =>
    obtain ⟨hsource₁, hchanged⟩ := h.rearrange f
    obtain ⟨hsource₂, htold⟩ := hchanged.emit depth hn
    obtain ⟨hsource₃, hcalm⟩ := htold.emit depth (n := .layout c) rfl
    have hrun : call.run (Session.emit depth) s = (true, Session.emit depth (.layout c)
        (Session.emit depth n (s.rearrange c f))) := by
      simp only [call, Session.switch, run_bind, hsync hstale, run_read, h.table, Option.any_some,
        show test t.arrangement = true from htest, if_true, run_change, run_send, run_pure]
    rw [show s' = _ from congrArg Prod.snd hrun, hrun]
    refine ⟨rfl, hsource₃.trans (hsource₂.trans hsource₁), hcalm,
      fun h => absurd h.symm Bool.false_ne_true, ?_⟩
    simp only [call, Session.switch, sent_bind, hsent, hsync hstale, sent_read, run_read, h.table,
      Option.any_some, show test t.arrangement = true from htest, if_true, sent_change, sent_send,
      sent_pure, List.nil_append, List.append_nil, List.singleton_append]

/-- So does the step that makes this call. -/
theorem switchStep (h : s.Calm c t) (hstale : t.stale = false) (depth : Nat)
    (test : Arrangement → Bool) (f : Arrangement → Arrangement) {n : Notice}
    (hn : n.channel.table? = some c) :
    let call := calling c (do return .flag (← Session.switch c test f n))
    let s' := (call.run (Session.emit depth) s).2
    let changed := test t.arrangement
    (call.run (Session.emit depth) s).1 = .flag changed ∧ s'.source = s.source ∧
      s'.Calm c (if changed then { t with arrangement := f t.arrangement } else t) ∧
      (changed = false → s' = s) ∧
      call.sent (Session.emit depth) s = if changed then [n, .layout c] else [] := by
  intro call s' changed
  obtain ⟨hanswer, hsource₁, hcalm, hsame, hsent⟩ := h.enter.switch hstale depth test f hn
  obtain ⟨hsource₂, hleft⟩ := hcalm.leave
  have hs' : s' = ((Session.switch c test f n).run (Session.emit depth) (s.enter c)).2.leave c := by
    simp only [s', call, h.run_calling, run_bind, run_pure]
  rw [hs']
  refine ⟨?_, hsource₂.trans hsource₁, hleft, fun hchanged => ?_, ?_⟩
  · simp only [call, h.run_calling, run_bind, run_pure, hanswer]
    rfl
  · rw [hsame hchanged, leave_enter h.isOpen]
  · simp only [call, h.sent_calling, sent_bind, sent_pure, List.append_nil, hsent]
    rfl

end Calm

end Session

/-- Whatever code outside has done, an open table fits together, and it is calm if nobody acts. -/
theorem Moment.Reaches.calm {allowed : Session → Step → Prop} {store : ItemStore}
    {log : List LogRecord} {m : Moment} (h : Reaches allowed ⟨ofStore store log, []⟩ m)
    (hquiet : m.session.Quiet) {c : TableId} {t : Table} (ht : m.session.table? c = some t)
    (hopen : m.session.isOpen c = true) : m.session.Calm c t ∧ t.arrangement.Coherent := by
  obtain ⟨e, he, rfl⟩ := table?_eq_some_iff.1 ht
  rw [isOpen, he, Option.any_some] at hopen
  exact ⟨⟨hquiet, (safe_deaf allowed).holds (deaf_ofStore _ _) h, e, he, hopen, rfl⟩,
    (safe_allCoherent allowed).holds (eachArrangement_ofStore _ _) h c e he⟩

/-- After fair use, the tree that an open table has when it is synced is that of the present
items. -/
theorem Moment.Reaches.tree_synced {store : ItemStore} {log : List LogRecord} {s : Session}
    (h : Reaches Fair ⟨ofStore store log, []⟩ ⟨s, []⟩) {c : TableId} {t : Table}
    (ht : s.table? c = some t) (hopen : s.isOpen c = true) :
    (t.synced s.source).tree = s.source.tree t.properties := by
  obtain ⟨e, he, rfl⟩ := table?_eq_some_iff.1 ht
  rw [isOpen, he, Option.any_some] at hopen
  have hlost : NothingLost [] s := safe_nothingLost.holds (nothingLost_ofStore _ _) h
  refine Table.tree_synced ?_
  cases hstale : e.table.stale with
  | true => exact .inl rfl
  | false => exact .inr (hlost.tree_eq he (.inl hopen) hstale)

end GroupedRows
