import Mathlib.Data.Set.Insert
import GroupedRows.Proofs.Session.Arrivals

/-!
# Mirrors of the open groups

A client that starts from the open groups of a table and follows the notices of opened and
closed groups knows at each of them which groups are open. This holds through any steps
that open and close groups one by one and any questions, as long as no pending change of
the source is applied. What changes all groups at once sends the layout only.
-/

namespace GroupedRows

open Call Session

/-! ## Open groups -/

namespace Arrangement

/-- The groups that are open. -/
def openGroups (a : Arrangement) : Set GroupPath := {k | a.isExpanded k = true}

variable {a : Arrangement} {k : GroupPath}

/-- To open a group that can be opened adds it to the open groups. -/
theorem openGroups_expand (h : a.canExpand k = true) :
    k ∉ a.openGroups ∧ (a.expand k).openGroups = insert k a.openGroups := by
  rw [canExpand, Bool.and_eq_true, Bool.not_eq_true'] at h
  obtain ⟨hgroup, hclosed⟩ := h
  refine ⟨fun hk => ?_, Set.ext fun j => ?_⟩
  · have hopen : a.expansion.contains k = true := (Bool.and_eq_true_iff.1 hk).2
    exact Bool.false_ne_true (hclosed.symm.trans hopen)
  · simp only [openGroups, isExpanded, Arrangement.expand, Set.mem_ofPred_eq, Set.mem_insert_iff,
      Bool.and_eq_true, Expansion.contains_iff, Expansion.mem_expand]
    constructor
    · rintro ⟨hj, rfl | hopen⟩
      · exact .inl rfl
      · exact .inr ⟨hj, hopen⟩
    · rintro (rfl | ⟨hj, hopen⟩)
      · exact ⟨hgroup, .inl rfl⟩
      · exact ⟨hj, .inr hopen⟩

/-- To close a group takes it away from the open groups. -/
theorem openGroups_collapse (a : Arrangement) (k : GroupPath) :
    (a.collapse k).openGroups = a.openGroups \ {k} := by
  ext j
  simp only [openGroups, isExpanded, Arrangement.collapse, Set.mem_ofPred_eq, Set.mem_sdiff,
    Set.mem_singleton_iff, Bool.and_eq_true, Expansion.contains_iff, Expansion.mem_collapse]
  constructor
  · rintro ⟨hj, hne, hopen⟩
    exact ⟨⟨hj, hopen⟩, hne⟩
  · rintro ⟨⟨hj, hopen⟩, hne⟩
    exact ⟨hj, hne, hopen⟩

end Arrangement

/-- The groups of a table that are open. -/
def Session.openGroups (s : Session) (c : TableId) : Set GroupPath :=
  {k | ∃ t, s.table? c = some t ∧ k ∈ t.arrangement.openGroups}

/-- The open groups of a session are those of the table's arrangement. -/
theorem Session.openGroups_eq {s : Session} {c : TableId} {t : Table} (h : s.table? c = some t) :
    s.openGroups c = t.arrangement.openGroups := by
  ext k
  constructor
  · rintro ⟨t', ht', hk⟩
    obtain rfl := Option.some.inj (h.symm.trans ht')
    exact hk
  · exact fun hk => ⟨t, h, hk⟩

/-! ## Mirrors -/

/-- A client that has this mirror of the open groups of a table, puts a group in when it is told
that the group has been opened and takes it out when it is told that it has been closed, has the
last mirror after these arrivals. Only groups that are not in the mirror are opened, and only
groups that are in it are closed. Each time the mirror shows what is open in the table at that
moment, and then the layout arrives once. -/
inductive Mirrors (c : TableId) : Set GroupPath → List Arrival → Set GroupPath → Prop where
  | nothing (mirror : Set GroupPath) : Mirrors c mirror [] mirror
  | opened {mirror last : Set GroupPath} {k : GroupPath} {s s' : Session} {rest : List Arrival} :
      k ∉ mirror → s.openGroups c = insert k mirror → s'.openGroups c = insert k mirror →
      Mirrors c (insert k mirror) rest last →
      Mirrors c mirror ((.expanded c k, s) :: (.layout c, s') :: rest) last
  | closed {mirror last : Set GroupPath} {k : GroupPath} {s s' : Session} {rest : List Arrival} :
      k ∈ mirror → s.openGroups c = mirror \ {k} → s'.openGroups c = mirror \ {k} →
      Mirrors c (mirror \ {k}) rest last →
      Mirrors c mirror ((.collapsed c k, s) :: (.layout c, s') :: rest) last

/-- A client that goes on from its mirror has followed both parts. -/
theorem Mirrors.append {c : TableId} {first middle last : Set GroupPath}
    {before after : List Arrival} (h : Mirrors c first before middle)
    (h' : Mirrors c middle after last) : Mirrors c first (before ++ after) last := by
  induction h with
  | nothing => exact h'
  | opened hk hs hs' _ ih => exact .opened hk hs hs' (ih h')
  | closed hk hs hs' _ ih => exact .closed hk hs hs' (ih h')

/-- The client has one receiver that is called for each of the signals that tell of open groups. -/
def Table.Serves (t : Table) (client : Client) : Prop :=
  ∀ signal ∈ [t.expanded, t.collapsed, t.layout], signal.audience.countP client = 1

/-- The client has followed a table up to a later session: its mirror is right unless a pending
change has been applied. -/
structure MirrorKept (client : Client) (c : TableId) (t : Table) (arrivals : List Arrival)
    (s' : Session) (t' : Table) : Prop where
  calm : s'.Calm c t'
  serves : t'.Serves client
  stale : t'.stale = true → t.stale = true
  mirrors : t'.stale = t.stale →
    Mirrors c t.arrangement.openGroups arrivals t'.arrangement.openGroups

namespace MirrorKept

variable {client : Client} {c : TableId} {t t' t'' : Table} {before after : List Arrival}
  {s s' s'' : Session}

/-- Where nothing arrives, the same groups have to be open. -/
theorem unmoved (h : s.Calm c t') (hserves : t'.Serves client) (hstale : t'.stale = t.stale)
    (hopen : t'.arrangement.openGroups = t.arrangement.openGroups) :
    MirrorKept client c t [] s t' :=
  ⟨h, hserves, fun hs => hstale ▸ hs, fun _ => hopen ▸ .nothing _⟩

/-- A client that follows twice follows on. A table that is no longer stale stays so. -/
theorem trans (h : MirrorKept client c t before s' t')
    (h' : MirrorKept client c t' after s'' t'') :
    MirrorKept client c t (before ++ after) s'' t'' where
  calm := h'.calm
  serves := h'.serves
  stale hs := h.stale (h'.stale hs)
  mirrors hs := by
    have hfirst : t'.stale = t.stale := by
      rw [Bool.eq_iff_iff]
      exact ⟨h.stale, fun ht => h'.stale (hs.trans ht)⟩
    exact (h.mirrors hfirst).append (h'.mirrors (hs.trans hfirst.symm))

end MirrorKept

/-- The signals that tell of open groups and of the layout are those of the table. -/
theorem Channel.table?_of_tells_open_groups {c : TableId} {channel : Channel}
    (h : channel ∈ [expanded c, collapsed c, layout c]) : channel.table? = some c := by
  simp only [List.mem_cons, List.not_mem_nil, or_false] at h
  rcases h with rfl | rfl | rfl <;> rfl

namespace Session

variable {α β : Type} {depth : Nat} {client : Client} {c : TableId} {s : Session} {t : Table}

/-- Each signal that tells of open groups calls one receiver of the client. -/
theorem Calm.countP_audience (h : s.Calm c t) (hserves : t.Serves client) {channel : Channel}
    (hchannel : channel ∈ [Channel.expanded c, .collapsed c, .layout c]) :
    (s.signal channel).audience.countP client = 1 := by
  simp only [List.mem_cons, List.not_mem_nil, or_false] at hchannel
  rcases hchannel with rfl | rfl | rfl
  all_goals
    simp only [signal, h.table, Option.map_some, Option.getD_some]
    exact hserves _ (by simp)

/-- A notice of open groups arrives once, while what is open in the table stays. -/
theorem Calm.arrivals (h : s.Calm c t) (hserves : t.Serves client) (depth : Nat) {n : Notice}
    (hn : n.channel ∈ [Channel.expanded c, .collapsed c, .layout c]) :
    ∃ s', s.arrivals depth client n = [(n, s')] ∧
      s'.openGroups c = t.arrangement.openGroups := by
  obtain ⟨s', harrived, htables⟩ :=
    h.deaf.arrivals_eq_singleton h.quiet depth (Channel.table?_of_tells_open_groups hn)
      (h.countP_audience hserves hn)
  refine ⟨s', harrived, openGroups_eq ?_⟩
  rw [table?, htables]
  exact h.table

/-! ## Calls that keep the mirror -/

/-- In a session in which nobody acts, the call keeps the client's mirror of the open groups right,
unless it applies a pending change. -/
def KeepsMirror (depth : Nat) (client : Client) (c : TableId) (m : Call α) : Prop :=
  ∀ s t, s.Calm c t → t.Serves client →
    ∃ t', MirrorKept client c t (m.arrivals depth client s) (m.run (emit depth) s).2 t'

theorem keepsMirror_pure (answer : α) : KeepsMirror depth client c (pure answer) :=
  fun _ t h hserves => ⟨t, .unmoved h hserves rfl rfl⟩

theorem KeepsMirror.bind {m : Call α} {f : α → Call β} (h : KeepsMirror depth client c m)
    (hf : ∀ answer, KeepsMirror depth client c (f answer)) :
    KeepsMirror depth client c (m >>= f) := by
  intro s t hcalm hserves
  obtain ⟨t', hfirst⟩ := h s t hcalm hserves
  obtain ⟨t'', hrest⟩ := hf _ _ t' hfirst.calm hfirst.serves
  rw [arrivals_bind, run_bind]
  exact ⟨t'', hfirst.trans hrest⟩

theorem KeepsMirror.map {m : Call α} (h : KeepsMirror depth client c m) (f : α → β) :
    KeepsMirror depth client c (do return f (← m)) :=
  h.bind fun _ => keepsMirror_pure _

theorem keepsMirror_read {f : Session → Call β} (h : ∀ s, KeepsMirror depth client c (f s)) :
    KeepsMirror depth client c (read >>= f) :=
  fun s => h s s

/-- To apply a pending change says nothing about the mirror, and without one nothing happens. -/
theorem keepsMirror_sync (depth : Nat) (client : Client) (c : TableId) :
    KeepsMirror depth client c (sync c) := by
  intro s t h hserves
  obtain ⟨-, hcalm, hsame, hsent⟩ := h.sync depth
  cases hstale : t.stale with
  | false =>
    rw [hstale, if_neg Bool.false_ne_true] at hsent
    have hnone : (sync c).arrivals depth client s = [] := Course.arrivals_eq_nil hsent
    rw [hnone, hsame hstale]
    exact ⟨t, .unmoved h hserves rfl rfl⟩
  | true =>
    have hsynced : t.synced s.source = t.rebuilt s.source t.properties false := if_pos hstale
    rw [hsynced] at hcalm
    exact ⟨_, hcalm, hserves, fun hs => absurd hs Bool.false_ne_true,
      fun hs => absurd (hs.trans hstale) Bool.false_ne_true⟩

/-- No question to a table changes which groups are open. -/
theorem asking_keepsMirror (depth : Nat) (client : Client) (c : TableId) :
    Asking fun {_} m => KeepsMirror depth client c (m c) where
  pure answer := keepsMirror_pure answer
  bind hm hf := hm.bind hf
  ask _ := keepsMirror_read fun _ => keepsMirror_pure _
  sync := keepsMirror_sync depth client c
  look := by
    intro s t h hserves
    rw [arrivals_change, run_change]
    unfold look
    rw [h.table]
    exact ⟨_, .unmoved ((h.write _).modifyEntry
      (fun t => { t with arrangement := t.arrangement.looked }) (fun _ => ⟨rfl, rfl⟩) fun _ => rfl)
      hserves rfl rfl⟩

theorem keepsMirror_settings :
    KeepsMirror depth client c (askTable c .settings) :=
  keepsMirror_read fun _ => keepsMirror_pure _

theorem keepsMirror_hold (name : String) : KeepsMirror depth client c (hold c name) := by
  refine (asking_keepsMirror depth client c).visible.bind fun v =>
    KeepsMirror.bind ?_ fun _ => keepsMirror_pure _
  intro s t h hserves
  exact ⟨t, .unmoved ⟨h.quiet, h.deaf, h.entry⟩ hserves rfl rfl⟩

/-- One group is opened or closed, and then this and the layout are announced. -/
theorem keepsMirror_switch {test : Arrangement → Bool} {f : Arrangement → Arrangement} {n : Notice}
    (hn : n.channel ∈ [Channel.expanded c, .collapsed c])
    (hf : ∀ a s s', test a = true → s.openGroups c = (f a).openGroups →
      s'.openGroups c = (f a).openGroups →
      Mirrors c a.openGroups [(n, s), (.layout c, s')] (f a).openGroups) :
    KeepsMirror depth client c (switch c test f n) := by
  refine (keepsMirror_sync depth client c).bind fun _ => ?_
  intro s t h hserves
  cases htest : test t.arrangement with
  | false =>
    simp only [arrivals_bind, arrivals_read, run_bind, run_read, h.table, Option.any_some, htest,
      Bool.false_eq_true, if_false, arrivals_pure, run_pure, List.nil_append]
    exact ⟨t, .unmoved h hserves rfl rfl⟩
  | true =>
    have hn : n.channel ∈ [Channel.expanded c, .collapsed c, .layout c] := by
      simp only [List.mem_cons, List.not_mem_nil, or_false] at hn ⊢
      exact hn.imp_right .inl
    obtain ⟨-, hchanged⟩ := h.rearrange f
    obtain ⟨-, htold⟩ := hchanged.emit depth (Channel.table?_of_tells_open_groups hn)
    obtain ⟨-, hcalm⟩ := htold.emit depth (n := .layout c) rfl
    obtain ⟨s₁, harrived₁, hopen₁⟩ := hchanged.arrivals hserves depth hn
    obtain ⟨s₂, harrived₂, hopen₂⟩ := htold.arrivals hserves depth (n := .layout c) (by
      simp [Notice.channel])
    simp only [arrivals_bind, arrivals_read, run_bind, run_read, h.table, Option.any_some, htest,
      if_true, arrivals_change, run_change, arrivals_send, run_send, arrivals_pure, run_pure,
      List.nil_append, List.append_nil, harrived₁, harrived₂]
    exact ⟨_, hcalm, hserves, id, fun _ => hf t.arrangement s₁ s₂ htest hopen₁ hopen₂⟩

/-- To open a group is told to the client. -/
theorem keepsMirror_expand (depth : Nat) (client : Client) (c : TableId) (k : GroupPath) :
    KeepsMirror depth client c (expand c k) := by
  rw [expand_eq_switch]
  refine keepsMirror_switch (List.mem_cons_self) fun a s s' hcan hs hs' => ?_
  obtain ⟨hk, hopened⟩ := Arrangement.openGroups_expand hcan
  rw [hopened] at hs hs' ⊢
  exact .opened hk hs hs' (.nothing _)

/-- To close a group is told to the client. -/
theorem keepsMirror_collapse (k : GroupPath) :
    KeepsMirror depth client c (collapse c k) := by
  change KeepsMirror depth client c (switch c (·.isExpanded k) (·.collapse k) (.collapsed c k))
  refine keepsMirror_switch (List.mem_cons_of_mem _ List.mem_cons_self) fun a s s' hk hs hs' => ?_
  rw [Arrangement.openGroups_collapse] at hs hs' ⊢
  exact .closed hk hs hs' (.nothing _)

/-- To open groups one after the other is told to the client group by group. -/
theorem keepsMirror_expandEach (path : List GroupPath) :
    KeepsMirror depth client c (expandEach c path) := by
  induction path with
  | nil => exact keepsMirror_pure false
  | cons k rest ih => exact (keepsMirror_expand depth client c k).bind fun _ => ih.map _

/-- To open the path to an item is told to the client group by group. -/
theorem keepsMirror_expandToItem (id : ItemId) :
    KeepsMirror depth client c (expandToItem c id) :=
  (keepsMirror_sync depth client c).bind fun _ => keepsMirror_read fun _ =>
    keepsMirror_expandEach _

/-- A call on the table keeps the mirror right, with its beginning and end. -/
theorem KeepsMirror.calling {call : Call Answer} (h : KeepsMirror depth client c call) :
    KeepsMirror depth client c (Session.calling c call) := by
  intro s t hcalm hserves
  obtain ⟨t', hkept⟩ := h _ t hcalm.enter hserves
  rw [hcalm.arrivals_calling, hcalm.run_calling]
  exact ⟨t', hkept.calm.leave.2, hkept.serves, hkept.stale, hkept.mirrors⟩

end Session

/-! ## Steps -/

/-- The step opens or closes groups of the table one by one, or asks the table or the source. -/
def Step.OneByOne (c : TableId) : Step → Prop
  | .table d (.expand _) | .table d (.collapse _) | .table d (.expandToItem _) => d = c
  | .askTable d _ | .hold d _ => d = c
  | .askSource _ | .held _ => True
  | _ => False

namespace Session

variable {depth : Nat} {client : Client} {c : TableId} {s : Session} {t : Table}

/-- Each step that switches groups one by one keeps the mirror right. -/
theorem keepsMirror_runStep {step : Step} (h : step.OneByOne c) :
    KeepsMirror depth client c (runStep step) := by
  cases step with
  | table d step =>
    cases step with
    | expand k =>
      obtain rfl : d = c := h
      exact ((keepsMirror_expand depth client d k).map _).calling
    | collapse k =>
      obtain rfl : d = c := h
      exact ((keepsMirror_collapse k).map _).calling
    | expandToItem id =>
      obtain rfl : d = c := h
      exact ((keepsMirror_expandToItem id).map _).calling
    | groupBy | refresh | expandAll | collapseAll => exact h.elim
  | askTable d query =>
    obtain rfl : d = c := h
    exact ((asking_keepsMirror depth client d).askTable keepsMirror_settings query).calling
  | hold d name =>
    obtain rfl : d = c := h
    exact ((keepsMirror_hold name).map _).calling
  | askSource | held => exact keepsMirror_read fun _ => keepsMirror_pure _
  | source | openTable | closeTable | block | connections | listen | unlisten => exact h.elim

/-- The client follows the table through any number of such steps, between which the journal is
emptied. -/
theorem Calm.mirrorKept_runAll (h : s.Calm c t) (hserves : t.Serves client) (depth : Nat)
    {steps : List Step} (hsteps : ∀ step ∈ steps, step.OneByOne c) :
    ∃ t', MirrorKept client c t (arrivalsAll depth client steps s) (runAll depth steps s).2 t' := by
  induction steps generalizing s t with
  | nil => exact ⟨t, .unmoved h hserves rfl rfl⟩
  | cons step rest ih =>
    obtain ⟨t', hstep⟩ := keepsMirror_runStep (hsteps step List.mem_cons_self) s t h hserves
    have hcalm : (runTop depth step s).2.Calm c t' :=
      ⟨hstep.calm.quiet, hstep.calm.deaf, hstep.calm.entry⟩
    obtain ⟨t'', hrest⟩ :=
      ih hcalm hstep.serves fun step hm => hsteps step (List.mem_cons_of_mem _ hm)
    exact ⟨t'', hstep.trans hrest⟩

/-- Steps run one after the other, wherever they are parted. -/
theorem snd_runAll_append (depth : Nat) (before after : List Step) (s : Session) :
    (runAll depth (before ++ after) s).2 = (runAll depth after (runAll depth before s).2).2 := by
  induction before generalizing s with
  | nil => rfl
  | cons step rest ih => exact ih _

/-! ## Steps that change all groups at once -/

/-- To group a table is told once, and then its layout; no single group is told of. -/
theorem Calm.sent_groupBy (h : s.Calm c t) (depth : Nat) (properties : List String) :
    (runStep (.table c (.groupBy properties))).sent (Session.emit depth) s =
      [.grouped c properties, .layout c] := by
  have hcall : (Session.groupBy c properties).sent (Session.emit depth) (s.enter c) =
      [.grouped c properties, .layout c] := by
    rw [Call.sent, start_groupBy h.enter.table]
    rfl
  refine (h.sent_calling _ _).trans ?_
  rw [runTable, sent_bind, hcall, sent_pure, List.append_nil]

/-- To refresh a table tells its layout and no single group. -/
theorem Calm.sent_refresh (h : s.Calm c t) (depth : Nat) :
    (runStep (.table c .refresh)).sent (Session.emit depth) s = [.layout c] := by
  refine (h.sent_calling _ _).trans ?_
  simp only [runTable, Session.refresh, sent_bind, sent_read, run_read, h.enter.table, sent_change,
    sent_send, sent_pure, List.nil_append, List.append_nil]

/-- To open or close all groups sends the layout, unless there is no grouping. -/
theorem Calm.sent_rearrangeAll (h : s.Calm c t) (depth : Nat) (f : Arrangement → Arrangement)
    (records : Table → List LogRecord) :
    (calling c (do rearrangeAll c f records; return .done)).sent (Session.emit depth) s =
      (if t.stale then [.layout c] else []) ++ if t.properties = [] then [] else [.layout c] := by
  obtain ⟨-, hsynced, -, hsent⟩ := h.enter.sync depth
  have hproperties : (t.synced s.source).tree.properties = t.properties := by
    unfold Table.synced
    split
    · exact t.properties_rebuilt _ _ _
    · rfl
  refine (h.sent_calling _ _).trans ?_
  unfold rearrangeAll
  simp only [sent_bind, hsent, sent_read, run_read, hsynced.table, sent_pure, List.nil_append,
    List.append_nil]
  congr 1
  have hgroups : (t.synced (s.enter c).source).tree.hasGroups = !t.properties.isEmpty :=
    congrArg (fun l : List String => !l.isEmpty) hproperties
  rw [hgroups]
  cases t.properties with
  | nil => rfl
  | cons p rest => rfl

end Session

namespace Moment

/-- Take an open table in a session in which nobody acts, whatever code outside has done before,
and a client that has one receiver on each of its signals for opened groups, closed groups and the
layout. Let groups be opened and closed one by one and questions be asked, so that no pending change
of the source is applied. Then the client mirrors the open groups, after every step and whenever it
is told of one. What changes all groups at once, which is to apply a pending change, to group, to
refresh, and with some properties to open or close all groups, sends the layout and tells of no
single group. -/
theorem client_mirrors_open_groups {store : ItemStore} {log : List LogRecord} {m : Moment}
    (h : Reaches AnyStep ⟨ofStore store log, []⟩ m) (hquiet : m.session.Quiet) {c : TableId}
    {t : Table} (ht : m.session.table? c = some t) (hopen : m.session.isOpen c = true)
    {client : Client} (hserves : t.Serves client) (depth : Nat) :
    let s := m.session
    let after (steps : List Step) := (runAll depth steps s).2
    let sent (step : TableStep) := (runStep (.table c step)).sent (emit depth) s
    let applied := if t.stale then [Notice.layout c] else []
    (∀ steps, (∀ step ∈ steps, step.OneByOne c) →
      ((after steps).table? c).map Table.stale = some t.stale →
      ∀ done, done <+: steps →
        Mirrors c (s.openGroups c) (arrivalsAll depth client done s) ((after done).openGroups c)) ∧
    (sync c).sent (emit depth) s = applied ∧
    (∀ properties, sent (.groupBy properties) = [.grouped c properties, .layout c]) ∧
    sent .refresh = [.layout c] ∧
    (sent .expandAll = applied ++ if t.properties = [] then [] else [.layout c]) ∧
    sent .collapseAll = applied ++ if t.properties = [] then [] else [.layout c] := by
  intro s after sent applied
  obtain ⟨hcalm, -⟩ := h.calm hquiet ht hopen
  refine ⟨?_, (hcalm.sync depth).2.2.2, hcalm.sent_groupBy depth, hcalm.sent_refresh depth,
    hcalm.sent_rearrangeAll depth _ _, hcalm.sent_rearrangeAll depth _ _⟩
  rintro steps hsteps hpending done ⟨rest, rfl⟩
  obtain ⟨t₁, hdone⟩ := hcalm.mirrorKept_runAll hserves depth
    fun step hm => hsteps step (List.mem_append_left _ hm)
  obtain ⟨t₂, hrest⟩ := hdone.calm.mirrorKept_runAll hdone.serves depth
    fun step hm => hsteps step (List.mem_append_right _ hm)
  have hend : t₂.stale = t.stale := by
    rw [show (after (done ++ rest)).table? c = _ from
      (congrArg (·.table? c) (snd_runAll_append ..)).trans hrest.calm.table] at hpending
    exact Option.some.inj hpending
  have hkept : t₁.stale = t.stale := by
    rw [Bool.eq_iff_iff]
    exact ⟨hdone.stale, fun hstale => hrest.stale (hend.trans hstale)⟩
  rw [openGroups_eq ht, openGroups_eq hdone.calm.table]
  exact hdone.mirrors hkept

/-- Three listeners that do nothing are told of a group that is opened, closed, and opened again to
reveal an item, and each time of the layout; a question in between tells them nothing. -/
theorem client_mirrors_open_groups_by_listeners :
    let kind := GroupPath.root "kind" .absent
    let s := (runAll 0 [
      .openTable (.changes [.properties ["kind"]]), .listen "opened" (.expanded 0) [] 1,
      .listen "closed" (.collapsed 0) [] 1, .listen "moved" (.layout 0) [] 1]
      (start [⟨.number 1, .empty⟩])).2
    let steps : List Step := [.table 0 (.expand kind), .askTable 0 .rows,
      .table 0 (.collapse kind), .table 0 (.expandToItem (.number 1))]
    let arrivals := arrivalsAll 0 Receiver.isListener steps s
    Mirrors 0 (s.openGroups 0) arrivals ((runAll 0 steps s).2.openGroups 0) ∧
      arrivals.map Prod.fst = [.expanded 0 kind, .layout 0, .collapsed 0 kind, .layout 0,
        .expanded 0 kind, .layout 0] := by
  intro kind s steps arrivals
  have hs : Reaches AnyStep ⟨start _, []⟩ ⟨s, []⟩ := reaches_runAll_ofStore _ _ 0 _
  have hquiet : s.Quiet := by
    have hscripts : s.listeners.map Listener.script = [[], [], []] := rfl
    intro l hl
    have hscript := List.mem_map_of_mem (f := Listener.script) hl
    rw [hscripts] at hscript
    simpa using hscript
  obtain ⟨t, ht, hopen, hstale, hexpanded, hcollapsed, hlayout⟩ : ∃ t, s.table? 0 = some t ∧
      s.isOpen 0 = true ∧ t.stale = false ∧
      t.expanded.audience = [.journal, .listener 0] ∧
      t.collapsed.audience = [.journal, .listener 1] ∧
      t.layout.audience = [.journal, .listener 2] := ⟨_, rfl, rfl, rfl, rfl, rfl, rfl⟩
  have hserves : t.Serves Receiver.isListener := by
    simp only [Table.Serves, List.forall_mem_cons, hexpanded, hcollapsed, hlayout]
    exact ⟨rfl, rfl, rfl, fun _ h => absurd h List.not_mem_nil⟩
  have hsteps : ∀ step ∈ steps, step.OneByOne 0 := by
    simp [steps, Step.OneByOne]
  have hpending : ((runAll 0 steps s).2.table? 0).map Table.stale = some t.stale := by
    rw [hstale]
    decide +kernel
  refine ⟨?_, by decide +kernel⟩
  exact (client_mirrors_open_groups hs hquiet ht hopen hserves 0).1 steps hsteps hpending steps
    List.prefix_rfl

end Moment

end GroupedRows
