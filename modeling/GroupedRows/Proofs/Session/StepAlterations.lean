import GroupedRows.Proofs.Session.Alteration
import GroupedRows.Proofs.Session.TableCalls

/-!
# Every step makes alterations only

Each step of a session, whatever its kind, is a call that follows the rule: alterations
between notices, and items exchanged only right before the notice of it.
-/

namespace GroupedRows

open Call Session

namespace Session

variable {allowed : Session → Step → Prop}

/-! ## Steps on the source -/

/-- Exchanged items are announced at once. -/
theorem follows_exchange {store : ItemStore} (c : ItemChange) {s s' : Session}
    (h : Altered allowed s s') (hx : Exchanges allowed s' store) :
    ((announce c).start (s'.setStore store)).Follows allowed s :=
  ⟨.exchanged c store h hx, fun _ => Relation.ReflTransGen.refl⟩

/-- An item that is refused is logged only. -/
theorem follows_refuse {α : Type} (r : LogEntry) (answer : α) :
    Follows allowed (do change (·.writeEntry r); return answer) :=
  (follows_change fun _ => .single (.write _)).bind fun _ => follows_pure _

/-- The answer is given when other items have been announced. -/
theorem follows_replace {α : Type} {s : Session} {store : ItemStore}
    (h : Exchanges allowed s store) (c : ItemChange) (answer : α) :
    ((do change (·.setStore store); announce c; return answer : Call α).start s).Follows
      allowed s :=
  (follows_exchange c .refl h).andThen fun _ => follows_pure _

/-- A push exchanges items and announces it. -/
theorem follows_push (i : Item) : Follows allowed (push i) := by
  refine follows_read_bind fun s => ?_
  dsimp only
  split
  · exact follows_refuse _ _ s
  · rename_i hi
    exact follows_replace (.push i (Bool.eq_false_iff.2 hi)) _ _

/-- An insertion exchanges items and announces it, or alters nothing but the log. -/
theorem follows_insert (position : Nat) (i : Item) : Follows allowed (insert position i) := by
  refine follows_read_bind fun s => ?_
  dsimp only
  split
  · exact follows_refuse _ _ s
  · rename_i hi
    exact follows_replace (.insert position i (Bool.eq_false_iff.2 hi)) _ _

/-- A removal exchanges items and announces it, or does nothing. -/
theorem follows_remove (id : ItemId) : Follows allowed (remove id) := by
  refine follows_read_bind fun s => ?_
  dsimp only
  split
  · exact follows_pure _ s
  · exact follows_replace (.remove _) _ _

/-- A change in place exchanges items and announces it, if it is allowed. -/
theorem follows_modify {s : Session} {id : ItemId} {edit : Item.Edit}
    (h : allowed s (.source (.modify id edit))) :
    ((modify id edit).start s).Follows allowed s := by
  refine follows_read_at ?_
  dsimp only
  split
  · exact follows_pure _ s
  · rename_i position hp
    exact follows_replace (.modify id edit position hp h) _ _

/-- To replace all items exchanges them and announces it. -/
theorem follows_replaceAll (items : List Item) : Follows allowed (replaceAll items) :=
  fun _ => follows_exchange _ (.single (.write _)) (.replaceAll items)

/-- To clear the source exchanges its items for none and announces it. -/
theorem follows_clear : Follows allowed clear :=
  fun _ => follows_exchange _ .refl (.replaceAll [])

/-- To bind the source alters its binding and announces it. -/
theorem follows_bind (state : Binding) : Follows allowed (bind state) := by
  refine follows_read_bind fun s => ?_
  dsimp only
  have hb : Follows allowed (change (·.modifySource
      ({ · with binding := (s.source.binding.set state).2 }))) :=
    follows_change fun s => .single (.bind _)
  refine hb.bind (fun _ => ?_) s
  split
  · exact (follows_change fun s => .single (.write _)).bind fun _ => follows_send _
  · exact follows_pure _

/-- Every step on the source follows the rules. -/
theorem follows_runSource {s : Session} {step : SourceStep} (h : allowed s (.source step)) :
    ((runSource step).start s).Follows allowed s := by
  cases step with
  | push i => exact (follows_push i).map _ s
  | insert position i => exact (follows_insert position i).map _ s
  | remove id => exact (follows_remove id).map _ s
  | modify id edit => exact (follows_modify h).andThen fun _ => follows_pure _
  | replaceAll items => exact (follows_replaceAll items).map _ s
  | clear => exact follows_clear.map _ s
  | bind state => exact (follows_bind state).map _ s
  | announce c => exact (follows_send _).map _ s
  | loadQuietly items => exact Relation.ReflTransGen.single (.load items h)
  | bindQuietly state => exact Relation.ReflTransGen.single (.bind _)

/-! ## Steps on a table -/

theorem follows_refresh (c : TableId) : Follows allowed (refresh c) := by
  refine follows_read_bind fun s => ?_
  split
  · exact follows_pure _ s
  · exact (follows_change fun s => .single (.rebuild _ _ _)).bind (fun _ => follows_send _) s

theorem follows_sync (c : TableId) : Follows allowed (sync c) := by
  refine follows_read_bind fun s => ?_
  split
  · exact follows_refresh c s
  · exact follows_pure _ s

theorem follows_groupBy (c : TableId) (properties : List String) :
    Follows allowed (groupBy c properties) := by
  refine follows_read_bind fun s => ?_
  split
  · exact follows_pure _ s
  · rename_i t _
    have hr : Follows allowed (change fun s =>
        (s.write (repeatLog properties)).rebuild c properties t.settings.expandOnGrouping) :=
      follows_change fun s => .tail (.single (.write _)) (.rebuild _ _ _)
    exact hr.bind (fun _ => (follows_send _).bind fun _ => follows_send _) s

/-- A table shows something else after dropping its snapshot. -/
theorem altered_rearrange {s : Session} {c : TableId} {f : Arrangement → Arrangement}
    (h : ∀ t, s.table? c = some t → t.arrangement.Alters (f t.arrangement)) :
    Altered allowed s (s.rearrange c f) := by
  unfold rearrange
  cases ht : s.table? c with
  | none => exact .refl
  | some t => exact .tail (.single (.write _)) (.arrange c f fun t' => h t')

theorem follows_expand (c : TableId) (k : GroupPath) : Follows allowed (expand c k) := by
  refine (follows_sync c).bind fun _ => follows_read_bind fun s => ?_
  split
  · rename_i h
    have hr : Altered allowed s (s.rearrange c (·.expand k)) :=
      altered_rearrange fun t ht => .expand k (by simpa [ht] using h)
    have hs : Follows allowed (do send (.expanded c k); send (.layout c); return true) :=
      (follows_send _).bind fun _ => (follows_send _).bind fun _ => follows_pure _
    exact (hs _).of_altered hr
  · exact follows_pure _ s

theorem follows_collapse (c : TableId) (k : GroupPath) : Follows allowed (collapse c k) := by
  refine (follows_sync c).bind fun _ => follows_read_bind fun s => ?_
  split
  · have hr : Altered allowed s (s.rearrange c (·.collapse k)) :=
      altered_rearrange fun t _ => .collapse k
    have hs : Follows allowed (do send (.collapsed c k); send (.layout c); return true) :=
      (follows_send _).bind fun _ => (follows_send _).bind fun _ => follows_pure _
    exact (hs _).of_altered hr
  · exact follows_pure _ s

theorem follows_rearrangeAll (c : TableId) {f : Arrangement → Arrangement}
    (h : ∀ a : Arrangement, a.Alters (f a)) (records : Table → List LogRecord) :
    Follows allowed (rearrangeAll c f records) := by
  refine (follows_sync c).bind fun _ => follows_read_bind fun s => ?_
  split
  · exact follows_pure _ s
  · rename_i t _
    split
    · have hr : Altered allowed s ((s.write (records t)).rearrange c f) :=
        .trans (.single (.write _)) (altered_rearrange fun t _ => h t.arrangement)
      exact (follows_send (.layout c) _).of_altered hr
    · exact follows_pure _ s

/-- A look is an alteration. -/
theorem altered_look (c : TableId) (s : Session) : Altered allowed s (s.look c) := by
  unfold look
  cases s.table? c with
  | none => exact .refl
  | some t => exact .tail (.single (.write _)) (.arrange c _ fun _ _ => .look)

/-- Calls on a table make alterations only, since those do of which they are made. -/
theorem working_follows : Working fun {_} m => ∀ c, Follows allowed (m c) where
  pure answer _ := follows_pure answer
  bind hm hf c := (hm c).bind fun answer => hf answer c
  ask _ _ := follows_read_bind fun s => follows_pure _ s
  sync := follows_sync
  look c := follows_change (altered_look c)
  refresh := follows_refresh
  groupBy properties c := follows_groupBy c properties
  expand k c := follows_expand c k
  collapse k c := follows_collapse c k
  expandAll c := follows_rearrangeAll c (fun _ => .expandAll) _
  collapseAll c := follows_rearrangeAll c (fun _ => .collapseAll) _

/-! ## All steps -/

/-- To close a table is an alteration, with its release if it is in use no longer. -/
theorem altered_closeTable (c : TableId) (s : Session) : Altered allowed s (s.closeTable c) := by
  unfold closeTable
  split
  · exact .tail (.single (.close c)) (.release c)
  · exact .refl

/-- The end of a call is an alteration, with the release of the table if it is closed. -/
theorem altered_leave (c : TableId) (s : Session) : Altered allowed s (s.leave c) :=
  .tail (.single (.finish c)) (.release c)

/-- A call on a table is surrounded by alterations of the table's entry. -/
theorem follows_calling (c : TableId) {call : Call Answer} (h : Follows allowed call) :
    Follows allowed (calling c call) := by
  refine follows_read_bind fun s => ?_
  split
  · rename_i hopen
    have hcall : Follows allowed (do let answer ← call; change (leave c); return answer) :=
      h.bind fun _ => (follows_change (altered_leave c)).bind fun _ => follows_pure _
    exact (hcall _).of_altered (.single (.enter c hopen))
  · exact follows_pure _ s

/-- Who uses a signal follows the rules as far as what is done with it does. -/
theorem follows_onChannel {s : Session} {channel : Channel} {use : Call Answer}
    (h : (use.start s).Follows allowed s) :
    ((onChannel channel use).start s).Follows allowed s := by
  refine follows_read_at ?_
  split
  · exact h
  · exact follows_pure _ s

theorem follows_hold (c : TableId) (name : String) : Follows allowed (hold c name) :=
  (working_follows.visible c).bind fun _ =>
    (follows_change fun _ => .single (.hold _)).bind fun _ => follows_pure _

/-- Whatever the step, between notices there are alterations only. -/
theorem follows_runStep {s : Session} {step : Step} (h : allowed s step) :
    ((runStep step).start s).Follows allowed s := by
  cases step with
  | source step => exact follows_runSource h
  | askSource query => exact follows_read_bind (fun s => follows_pure _ s) s
  | openTable recipe =>
    simp only [runStep]
    split
    · exact follows_pure _ s
    · exact Relation.ReflTransGen.single (.openTable _)
  | closeTable c => exact altered_closeTable c s
  | table c step => exact follows_calling c (working_follows.runTable step c) s
  | askTable c query =>
    have hsettings : ∀ c, Follows allowed (Session.askTable c .settings) := fun _ =>
      follows_read_bind fun s => follows_pure _ s
    exact follows_calling c (working_follows.askTable hsettings query c) s
  | block channel on => exact follows_onChannel (Relation.ReflTransGen.single (.block channel on h))
  | connections channel => exact follows_onChannel (Relation.ReflTransGen.refl)
  | listen name channel script times =>
    exact follows_onChannel (Relation.ReflTransGen.single (.listen name channel script times h))
  | unlisten name channel =>
    exact follows_onChannel (Relation.ReflTransGen.single (.unlisten name channel h))
  | hold c name => exact follows_calling c ((follows_hold c name).map _) s
  | held name => exact follows_read_bind (fun s => follows_pure _ s) s

end Session

/-- A condition holds at every moment if alterations keep it, notices under way agree with it,
also when items have been exchanged, and receivers keep it. -/
theorem Moment.Safe.of_alterations {allowed : Session → Step → Prop}
    {inv : UnderWay → Session → Prop}
    (alters : ∀ us s s', inv us s → Alters allowed s s' → inv us s')
    (fit : ∀ us s n, inv us s → Fit inv us n s)
    (exchange : ∀ us s change store, inv us s → Exchanges allowed s store →
      Fit inv us (.items change) ((s.setStore store).writeEntry (.itemsChanged change)))
    (note : ∀ us s listeners names held journal, inv us s →
      inv us { s with listeners, names, held, journal })
    (receive : ∀ us n r pending s, inv ((n, r :: pending) :: us) s →
      inv ((n, pending) :: us) (s.receive n r))
    (endEmission : ∀ us n s, inv ((n, []) :: us) s → inv us s.endEmission) :
    Safe allowed inv where
  call us _ _ hs ha := (follows_runStep ha).keeps hs (alters us) (fit us) (exchange us)
  note := note
  receive := receive
  endEmission := endEmission

end GroupedRows
