import GroupedRows.Session.Questions

/-!
# What calls on tables are made of

Every question to a table applies a pending change, may look at the rows, and answers by
what it finds; every step on a table is made of a few changes that are announced. So a
condition that composed calls inherit holds of all calls on tables if it holds of these few.
-/

namespace GroupedRows

open Call Session

/-- The settings without grouping properties. -/
def Settings.ungrouped (settings : Settings) : Settings := { settings with properties := [] }

namespace Session

/-- Of a table, what an answer can depend on, unless the question is for its settings: those name
the grouping properties of a new table, which play no part later. -/
def sight (s : Session) (c : TableId) : Option (Settings × Arrangement × Bool) :=
  (s.table? c).map fun t => (t.settings.ungrouped, t.arrangement, t.stale)

/-- The value depends only on the items and the binding, and on what an answer about the table can
depend on. -/
def Sighted {α : Type} (g : TableId → Session → α) : Prop :=
  ∀ c c' s s', s'.source.store = s.source.store → s'.source.binding = s.source.binding →
    s'.sight c' = s.sight c → g c' s' = g c s

variable {α β : Type} {g : TableId → Session → α}

theorem Sighted.map (h : Sighted g) (f : α → β) : Sighted fun c s => f (g c s) :=
  fun c c' s s' hstore hbinding hsight => congrArg f (h c c' s s' hstore hbinding hsight)

/-- The signals of a table and its links play no part. -/
theorem sighted_table (f : Settings → Arrangement → Bool → α) :
    Sighted fun c s => (s.table? c).map fun t => f t.settings.ungrouped t.arrangement t.stale := by
  intro c c' s s' _ _ h
  have hf := congrArg (Option.map fun v => f v.1 v.2.1 v.2.2) h
  simpa only [sight, Option.map_map, Function.comp_def] using hf

theorem sighted_tree : Sighted fun c s => s.tree c :=
  (sighted_table fun _ a _ => a.tree).map (·.getD .empty)

theorem sighted_any (f : Arrangement → Bool → Bool) :
    Sighted fun c s => (s.table? c).any fun t => f t.arrangement t.stale := by
  have hmap : ∀ o : Option Table, (o.any fun t => f t.arrangement t.stale) =
      (o.map fun t => f t.arrangement t.stale).getD false := fun o => by cases o <;> rfl
  simp only [hmap]
  exact (sighted_table fun _ a stale => f a stale).map (·.getD false)

theorem sighted_isActive : Sighted fun _ s => s.source.isActive := by
  intro _ _ s s' _ hbinding _
  exact congrArg (fun b : Cell Binding => decide (b.value = .active)) hbinding

theorem sighted_itemsOf (ids : GroupTree → List ItemId) :
    Sighted fun c s => s.source.itemsOf (ids (s.tree c)) := by
  intro c c' s s' hstore hbinding hsight
  simp only [Source.itemsOf, hstore, sighted_tree c c' s s' hstore hbinding hsight]

/-! ## Questions -/

/-- A condition on calls that composed calls inherit, and that calls meet of which every question
to a table is made but the one for its settings. -/
structure Asking (P : {α : Type} → (TableId → Call α) → Prop) : Prop where
  pure : ∀ {α : Type} (answer : α), P fun _ => pure answer
  bind : ∀ {α β : Type} {m : TableId → Call α} {f : α → TableId → Call β}, P m →
    (∀ answer, P (f answer)) → P fun c => m c >>= fun answer => f answer c
  ask : ∀ {α : Type} {g : TableId → Session → α}, Sighted g → P fun c => do return g c (← read)
  sync : P sync
  look : P fun c => change (look c)

namespace Asking

variable {P : {α : Type} → (TableId → Call α) → Prop}

/-- An answer is made of that of another call. -/
theorem map (h : Asking P) {m : TableId → Call α} (hm : P m) (f : α → β) :
    P fun c => do return f (← m c) :=
  h.bind hm fun answer => h.pure (f answer)

/-- What to do next is decided by what is found. -/
theorem askBind (h : Asking P) (hg : Sighted g) {f : α → TableId → Call β}
    (hf : ∀ v, P (f v)) : P fun c => read >>= fun s => f (g c s) c :=
  h.bind (m := fun c => do return g c (← read)) (h.ask hg) hf

/-- After a pending change has been applied, the table answers. -/
theorem synced (h : Asking P) (hg : Sighted g) :
    P fun c => do Session.sync c; return g c (← read) :=
  h.bind h.sync fun _ => h.ask hg

theorem visible (h : Asking P) : P visible := by
  have hshown : Sighted fun c s => ((s.table? c).map fun t => t.arrangement.look).getD .empty :=
    (sighted_table fun _ a _ => a.look).map (·.getD .empty)
  have hlooked : P fun c => do
      Session.sync c
      let s ← read
      change (Session.look c)
      return ((s.table? c).map fun t => t.arrangement.look).getD .empty :=
    h.bind h.sync fun _ => h.askBind hshown fun v => h.bind h.look fun _ => h.pure v
  have hcases : ∀ active : Bool, P fun c =>
      if active then do
        Session.sync c
        let s ← read
        change (Session.look c)
        return ((s.table? c).map fun t => t.arrangement.look).getD .empty
      else return .empty := by
    intro active
    cases active with
    | false => exact h.pure _
    | true => exact hlooked
  exact h.askBind sighted_isActive hcases

theorem askTree (h : Asking P) (answer : GroupTree → Answer) : P fun c => askTree c answer :=
  h.synced (sighted_tree.map answer)

theorem askItems (h : Asking P) (ids : GroupTree → List ItemId) : P fun c => askItems c ids :=
  h.synced ((sighted_itemsOf ids).map Answer.items)

theorem askRows (h : Asking P) (answer : Snapshot → Answer) : P fun c => askRows c answer :=
  h.map h.visible answer

theorem outline (h : Asking P) (options : Outline.Options) : P fun c => outline c options := by
  have hanswer := (sighted_table fun _ a _ => Outline.text options a.tree a.expansion).map
    fun text => (text.map Answer.text).getD .noTable
  have heq : (fun c => Session.outline c options) = fun c => do
      Session.sync c
      return ((((← read).table? c).map fun t =>
        Outline.text options t.tree t.arrangement.expansion).map Answer.text).getD .noTable := by
    funext c
    refine congrArg (Session.sync c >>= ·) (funext fun _ => ?_)
    refine congrArg (read >>= ·) (funext fun s => ?_)
    cases s.table? c <;> rfl
  rw [heq]
  exact h.synced hanswer

theorem walkForward (h : Asking P) (limit : Nat) (r : Option Row) :
    P fun c => walkForward c limit r := by
  induction limit generalizing r with
  | zero => exact h.pure _
  | succ limit ih =>
    cases r with
    | none => exact h.pure _
    | some r =>
      exact h.bind h.visible fun _ => h.bind h.visible fun _ => h.bind h.visible fun _ =>
        h.bind h.visible fun _ => h.map (ih _) _

theorem walkBackward (h : Asking P) (limit : Nat) (r : Option Row) :
    P fun c => walkBackward c limit r := by
  induction limit generalizing r with
  | zero => exact h.pure _
  | succ limit ih =>
    cases r with
    | none => exact h.pure _
    | some r => exact h.bind h.visible fun _ => h.map (ih _) _

theorem walk (h : Asking P) : P walk :=
  h.bind h.visible fun _ => h.bind h.visible fun _ => h.bind (h.walkForward _ _) fun _ =>
    h.bind h.visible fun _ => h.map (h.walkBackward _ _) _

/-- Every question to a table meets the condition, unless it is for the settings. -/
theorem askTable_of_ne (h : Asking P) {query : TableQuery} (hquery : query ≠ .settings) :
    P fun c => askTable c query := by
  cases query with
  | isGroup r => cases r with
    | group k => simp only [Session.askTable]; exact h.askTree _
    | item id => exact h.pure _
  | groupOf r => cases r with
    | group k => simp only [Session.askTable]; exact h.askTree _
    | item id => exact h.pure _
  | ownItems | items => simp only [Session.askTable]; exact h.askItems _
  | isExpanded k => exact h.synced ((sighted_any fun a _ => a.isExpanded k).map Answer.flag)
  | outline options => exact h.outline options
  | settings => exact absurd rfl hquery
  | sourceSize =>
    exact h.ask fun _ _ _ _ hstore _ _ => congrArg (fun s : ItemStore => Answer.count s.size) hstore
  | walk => exact h.walk
  | rows | size | first | last | next | previous | isFirst | isLast | positionOf | rowAt =>
    exact h.askRows _
  | _ => simp only [Session.askTable]; exact h.askTree _

/-- If that one does too, then every question does. -/
theorem askTable (h : Asking P) (hsettings : P fun c => askTable c .settings) (query : TableQuery) :
    P fun c => askTable c query := by
  cases query with
  | settings => exact hsettings
  | _ => exact h.askTable_of_ne TableQuery.noConfusion

end Asking

/-! ## Steps -/

/-- Such a condition that calls also meet of which every step on a table is made. -/
structure Working (P : {α : Type} → (TableId → Call α) → Prop) : Prop extends Asking P where
  refresh : P refresh
  groupBy : ∀ properties, P fun c => groupBy c properties
  expand : ∀ k, P fun c => expand c k
  collapse : ∀ k, P fun c => collapse c k
  expandAll : P expandAll
  collapseAll : P collapseAll

namespace Working

variable {P : {α : Type} → (TableId → Call α) → Prop}

theorem expandEach (h : Working P) (path : List GroupPath) : P fun c => expandEach c path := by
  induction path with
  | nil => exact h.pure _
  | cons k rest ih => exact h.bind (h.expand k) fun _ => h.map ih _

theorem expandToItem (h : Working P) (id : ItemId) : P fun c => expandToItem c id :=
  h.bind h.sync fun _ => h.askBind (sighted_tree.map (·.pathOf id)) fun path => h.expandEach path

/-- Every step on a table meets the condition. -/
theorem runTable (h : Working P) (step : TableStep) : P fun c => runTable c step := by
  cases step with
  | groupBy properties => exact h.map (h.groupBy properties) _
  | refresh => exact h.map h.refresh _
  | expandAll => exact h.map h.expandAll _
  | collapseAll => exact h.map h.collapseAll _
  | expand k => exact h.map (h.expand k) _
  | collapse k => exact h.map (h.collapse k) _
  | expandToItem id => exact h.map (h.expandToItem id) _

end Working

/-! ## Calls that meet a condition one by one -/

/-- A condition on calls that composed calls inherit, and that each of the calls meets of which the
questions to a table and the steps on it are made. -/
structure Composed (P : {α : Type} → (TableId → Call α) → Prop) : Prop where
  pure : ∀ {α : Type} (answer : α), P fun _ => pure answer
  bind : ∀ {α β : Type} {m : TableId → Call α} {f : α → TableId → Call β}, P m →
    (∀ answer, P (f answer)) → P fun c => m c >>= fun answer => f answer c
  ask : ∀ {α : Type} {g : TableId → Session → α}, Sighted g → P fun c => do return g c (← read)
  look : P fun c => change (look c)
  write : ∀ records : List LogRecord, P fun _ => change (·.write records)
  rebuild : ∀ (properties : List String) (expandAll : Bool),
    P fun c => change (rebuild c properties expandAll)
  rearrange : ∀ f : Arrangement → Arrangement, P fun c => change (rearrange c f)
  grouped : ∀ properties, P fun c => send (.grouped c properties)
  expanded : ∀ k, P fun c => send (.expanded c k)
  collapsed : ∀ k, P fun c => send (.collapsed c k)
  layout : P fun c => send (.layout c)

namespace Composed

variable {P : {α : Type} → (TableId → Call α) → Prop}

/-- What to do next is decided by what is found. -/
theorem askBind (h : Composed P) (hg : Sighted g) {f : α → TableId → Call β}
    (hf : ∀ v, P (f v)) : P fun c => read >>= fun s => f (g c s) c :=
  h.bind (m := fun c => do return g c (← read)) (h.ask hg) hf

/-- What to do next with a table is decided by its switches and by what it shows. -/
theorem table (h : Composed P) (missing : β) {f : TableId → Table → Call β}
    (g : Settings → Arrangement → α) (k : α → TableId → Call β)
    (hf : ∀ c t, f c t = k (g t.settings.ungrouped t.arrangement) c) (hk : ∀ v, P (k v)) :
    P fun c => (do
      match (← read).table? c with
      | none => return missing
      | some t => f c t) := by
  have heq : (fun c => do
      match (← read).table? c with
      | none => return missing
      | some t => f c t) = fun c => read >>= fun s =>
        ((s.table? c).map fun t => g t.settings.ungrouped t.arrangement).elim
          (Pure.pure missing) (k · c) := by
    funext c
    refine congrArg (read >>= ·) (funext fun s => ?_)
    cases s.table? c with
    | none => rfl
    | some t => exact hf c t
  rw [heq]
  refine h.askBind (sighted_table fun settings a _ => g settings a)
    (f := fun v c => v.elim (Pure.pure missing) (k · c)) fun v => ?_
  cases v with
  | none => exact h.pure missing
  | some v => exact hk v

theorem refresh (h : Composed P) : P refresh :=
  h.table () (fun _ a => a.tree.properties)
    (fun properties c => do
      change (Session.rebuild c properties false)
      send (.layout c))
    (fun _ _ => rfl) fun properties => h.bind (h.rebuild properties false) fun _ => h.layout

theorem sync (h : Composed P) : P sync := by
  refine h.askBind (sighted_any fun _ stale => stale)
    (f := fun v c => if v then Session.refresh c else Pure.pure ()) fun v => ?_
  cases v with
  | true => exact h.refresh
  | false => exact h.pure ()

theorem groupBy (h : Composed P) (properties : List String) : P fun c => groupBy c properties :=
  h.table () (fun settings _ => settings.expandOnGrouping)
    (fun expandAll c => do
      change (·.write (repeatLog properties))
      change (Session.rebuild c properties expandAll)
      send (.grouped c properties)
      send (.layout c))
    (fun _ _ => rfl) fun expandAll =>
      h.bind (h.write _) fun _ => h.bind (h.rebuild properties expandAll) fun _ =>
        h.bind (h.grouped properties) fun _ => h.layout

/-- A group is opened or closed if a test allows it, and that is announced. -/
theorem switch (h : Composed P) (test : Arrangement → Bool) (f : Arrangement → Arrangement)
    {n : TableId → Notice} (hn : P fun c => send (n c)) : P fun c => do
      Session.sync c
      if ((← read).table? c).any fun t => test t.arrangement then
        change (Session.rearrange c f)
        send (n c)
        send (.layout c)
        return true
      else return false := by
  refine h.bind h.sync fun _ => h.askBind (sighted_any fun a _ => test a) (f := fun v c =>
    if v then do
      change (Session.rearrange c f)
      send (n c)
      send (.layout c)
      return true
    else return false) fun v => ?_
  cases v with
  | true =>
    exact h.bind (h.rearrange f) fun _ => h.bind hn fun _ => h.bind h.layout fun _ => h.pure true
  | false => exact h.pure false

theorem rearrangeAll (h : Composed P) (f : Arrangement → Arrangement)
    (records : Arrangement → List LogRecord) :
    P fun c => rearrangeAll c f fun t => records t.arrangement := by
  refine h.bind h.sync fun _ => h.table () (fun _ a => a)
    (fun a c => if a.tree.hasGroups then do
        change (·.write (records a))
        change (Session.rearrange c f)
        send (.layout c)
      else return)
    (fun _ _ => rfl) fun a => ?_
  split
  · exact h.bind (h.write _) fun _ => h.bind (h.rearrange f) fun _ => h.layout
  · exact h.pure ()

/-- Every question to a table and every step on it meets the condition. -/
theorem working (h : Composed P) : Working P where
  pure := h.pure
  bind := h.bind
  ask := h.ask
  sync := h.sync
  look := h.look
  refresh := h.refresh
  groupBy := h.groupBy
  expand k := h.switch (·.canExpand k) (·.expand k) (h.expanded k)
  collapse k := h.switch (·.isExpanded k) (·.collapse k) (h.collapsed k)
  expandAll := h.rearrangeAll Arrangement.expandAll fun a => Expansion.allLog a.tree
  collapseAll := h.rearrangeAll Arrangement.collapseAll fun _ => []

end Composed

/-! ## Announced changes of one table -/

/-- The change rebuilds a table or opens and closes its groups, perhaps after writing to the log. -/
inductive Rearranges (c : TableId) : (Session → Session) → Prop where
  | rebuild (properties : List String) (expandAll : Bool) :
      Rearranges c (rebuild c properties expandAll)
  | rearrange (f : Arrangement → Arrangement) : Rearranges c (rearrange c f)
  | write {f : Session → Session} (records : List LogRecord) :
      Rearranges c f → Rearranges c fun s => f (s.write records)

/-- A condition on calls that composed calls inherit, and that those meet which change one table and
announce its layout. -/
structure Announcing (P : {α : Type} → Call α → Prop) (c : TableId) : Prop where
  pure : ∀ {α : Type} (answer : α), P (pure answer)
  bind : ∀ {α β : Type} {m : Call α} {f : α → Call β}, P m → (∀ answer, P (f answer)) → P (m >>= f)
  read : ∀ {β : Type} {f : Session → Call β}, (∀ s, P (f s)) → P (read >>= f)
  look : P (change (look c))
  send : ∀ {n : Notice}, n.channel.table? = some c → P (send n)
  announced : ∀ {α : Type} {f : Session → Session} {m : Call Unit} (answer : α), Rearranges c f →
    P m → P (do change f; m; Call.send (.layout c); return answer)

namespace Announcing

variable {P : {α : Type} → Call α → Prop} {c : TableId}

theorem refresh (h : Announcing P c) : P (refresh c) := by
  refine h.read fun s => ?_
  split
  · exact h.pure _
  · exact h.announced () (.rebuild _ false) (h.pure ())

theorem sync (h : Announcing P c) : P (sync c) := by
  refine h.read fun s => ?_
  split
  · exact h.refresh
  · exact h.pure _

theorem groupBy (h : Announcing P c) (properties : List String) : P (groupBy c properties) := by
  refine h.read fun s => ?_
  split
  · exact h.pure _
  · exact h.announced () (.write _ (.rebuild properties _)) (h.send rfl)

/-- A group is opened or closed if a test allows it, and that is announced. -/
theorem switch (h : Announcing P c) (test : Table → Bool) (f : Arrangement → Arrangement)
    {n : Notice} (hn : n.channel.table? = some c) : P (do
      Session.sync c
      if ((← Call.read).table? c).any test then
        change (rearrange c f)
        Call.send n
        Call.send (.layout c)
        return true
      else return false) := by
  refine h.bind h.sync fun _ => h.read fun s => ?_
  split
  · exact h.announced true (.rearrange f) (h.send hn)
  · exact h.pure _

/-- The settings are read. -/
theorem settings (h : Announcing P c) : P (askTable c .settings) := h.read fun _ => h.pure _

theorem rearrangeAll (h : Announcing P c) (f : Arrangement → Arrangement)
    (records : Table → List LogRecord) : P (rearrangeAll c f records) := by
  refine h.bind h.sync fun _ => h.read fun s => ?_
  split
  · exact h.pure _
  · split
    · exact h.announced () (.write _ (.rearrange f)) (h.pure ())
    · exact h.pure _

/-- Calls on a table are made of such changes and of looks at the rows. -/
theorem working {among : TableId → Prop} (h : ∀ c, among c → Announcing P c) :
    Working fun {_} m => ∀ c, among c → P (m c) where
  pure answer c hc := (h c hc).pure answer
  bind hm hf c hc := (h c hc).bind (hm c hc) fun answer => hf answer c hc
  ask _ c hc := (h c hc).read fun _ => (h c hc).pure _
  sync c hc := (h c hc).sync
  look c hc := (h c hc).look
  refresh c hc := (h c hc).refresh
  groupBy properties c hc := (h c hc).groupBy properties
  expand _ c hc := (h c hc).switch _ _ rfl
  collapse _ c hc := (h c hc).switch _ _ rfl
  expandAll c hc := (h c hc).rearrangeAll _ _
  collapseAll c hc := (h c hc).rearrangeAll _ _

end Announcing

end Session

end GroupedRows
