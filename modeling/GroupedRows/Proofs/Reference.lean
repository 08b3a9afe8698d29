import GroupedRows.GroupTree.Build
import GroupedRows.Outline.Text
import GroupedRows.Session.Answer
import GroupedRows.Snapshot

/-!
# Tables without caches

The reference for what tables answer. Its source is a list of items. Of a table it keeps
the grouping properties, which groups are open, and whether the source has changed since
the table was used last; trees and rows are made anew for every answer.
-/

namespace GroupedRows

/-- The open groups that meet a condition. -/
def Expansion.keep (e : Expansion) (p : GroupPath → Bool) : Expansion :=
  ⟨e.paths.filter p, List.filter_sublist.nodup e.nodup⟩

/-- A source as a list of items. -/
structure PlainSource where
  items : List Item
  binding : Binding

namespace PlainSource

/-- The first item of an identifier. -/
def find? (s : PlainSource) (id : ItemId) : Option Item := s.items.find? (·.id = id)

/-- The value of a property of the first item of an identifier. -/
def value? (s : PlainSource) (id : ItemId) (property : String) : Option Value :=
  (s.find? id).bind (·.property? property)

/-- The tree of the items under a list of properties. -/
def tree (s : PlainSource) (properties : List String) : GroupTree :=
  .build (s.items.map Item.id) properties s.value?

/-- The items that identifiers name. -/
def itemsOf (s : PlainSource) (ids : List ItemId) : List Item := ids.filterMap s.find?

end PlainSource

/-- A table as the reference keeps it. -/
structure PlainTable where
  settings : Settings
  properties : List String
  opened : Expansion
  /-- The source has changed since the table was used last. -/
  pending : Bool

namespace PlainTable

/-- A table as it is made. -/
def start (source : PlainSource) (settings : Settings) : PlainTable :=
  ⟨settings, settings.properties,
    if settings.expandOnGrouping then .all (source.tree settings.properties) else .empty, false⟩

/-- What stays open in a tree: the open groups that it still has, or none by the settings. -/
def pruned (t : PlainTable) (tree : GroupTree) : Expansion :=
  if t.settings.restoreExpansion then t.opened.keep tree.contains else .empty

/-- The table with other properties, its open groups pruned or all opened. -/
def group (t : PlainTable) (source : PlainSource) (properties : List String)
    (expandAll : Bool) : PlainTable :=
  let tree := source.tree properties
  { t with properties, opened := if expandAll then .all tree else t.pruned tree, pending := false }

/-- The table after pruning. -/
def refresh (t : PlainTable) (source : PlainSource) : PlainTable :=
  t.group source t.properties false

/-- The table after pruning if a change of the source is pending. -/
def sync (t : PlainTable) (source : PlainSource) : PlainTable :=
  if t.pending then t.refresh source else t

/-- The tree of the present items. -/
def tree (t : PlainTable) (source : PlainSource) : GroupTree := source.tree t.properties

/-- The visible rows of the present items. -/
def rows (t : PlainTable) (source : PlainSource) : Snapshot :=
  .flatten (t.tree source) t.opened

/-- Answer to a step and the table after it. -/
def step (source : PlainSource) (step : TableStep) (t : PlainTable) : Answer × PlainTable :=
  let now := t.sync source
  let tree := now.tree source
  match step with
  | .groupBy properties => (.done, t.group source properties t.settings.expandOnGrouping)
  | .refresh => (.done, t.refresh source)
  | .expandAll => (.done, { now with opened := .all tree })
  | .collapseAll => (.done, { now with opened := .empty })
  | .expand k =>
    if tree.contains k && !now.opened.contains k then
      (.flag true, { now with opened := now.opened.expand k })
    else (.flag false, now)
  | .collapse k =>
    if now.opened.contains k then
      (.flag true, { now with opened := now.opened.collapse k })
    else (.flag false, now)
  | .expandToItem id =>
    let path := tree.pathOf id
    (.flag (path.any fun k => !now.opened.contains k),
      { now with opened := path.foldl .expand now.opened })

/-- A question about groups, which applies a pending change first. -/
def askTree (source : PlainSource) (answer : GroupTree → Answer) (t : PlainTable) :
    Answer × PlainTable :=
  let now := t.sync source
  (answer (now.tree source), now)

/-- A question about a group, which must be one of the tree. -/
def askGroup (source : PlainSource) (k : GroupPath) (answer : Answer) :
    PlainTable → Answer × PlainTable :=
  askTree source fun tree => if tree.contains k then answer else .failure (.unknownGroup k)

/-- The visible rows as a question finds them. Over an inactive source there are none, and a
pending change stays pending. -/
def look (source : PlainSource) (t : PlainTable) : Snapshot × PlainTable :=
  if source.binding = .active then
    let now := t.sync source
    (now.rows source, now)
  else (.empty, t)

/-- A question about the visible rows. -/
def askRows (source : PlainSource) (answer : Snapshot → Answer) (t : PlainTable) :
    Answer × PlainTable :=
  (answer (t.look source).1, (t.look source).2)

/-- What a walk notes of at most `limit` rows from a row on. -/
def marks (v : Snapshot) : Nat → Option Row → List WalkMark
  | 0, _ => []
  | _ + 1, none => []
  | limit + 1, some r => ⟨v.position? r, v.isFirst r, v.isLast r⟩ :: marks v limit (v.next? r)

/-- At most `limit` rows from a row backwards. -/
def backward (v : Snapshot) : Nat → Option Row → List Row
  | 0, _ => []
  | _ + 1, none => []
  | limit + 1, some r => r :: backward v limit (v.previous? r)

/-- Answer to a question and the table after it. -/
def ask (source : PlainSource) (query : TableQuery) : PlainTable → Answer × PlainTable :=
  match query with
  | .hasGroups => askTree source fun tree => .flag tree.hasGroups
  | .properties => askTree source fun tree => .texts tree.properties
  | .roots => askTree source fun tree => .groups tree.roots
  | .contains k => askTree source fun tree => .flag (tree.contains k)
  | .isGroup (.item _) => fun t => (.flag false, t)
  | .isGroup (.group k) => askTree source fun tree => .flag (tree.contains k)
  | .groupOf (.item id) => fun t => (.failure (.notAGroup (.item id)), t)
  | .groupOf (.group k) => askGroup source k (.group (some k))
  | .hasChildren k => askTree source fun tree => .flag (tree.hasChildren k)
  | .children k => askTree source fun tree => .groups (tree.children k)
  | .ownItems k => askTree source fun tree => .items (source.itemsOf (tree.ownItems k))
  | .items k => askTree source fun tree => .items (source.itemsOf (tree.allItems k))
  | .property k => askGroup source k (.text k.property)
  | .value k => askGroup source k (.value (some k.value))
  | .itemIds k => askTree source fun tree => .ids (tree.allItems k)
  | .itemCount k => askTree source fun tree => .count (tree.itemCount k)
  | .leafOf id => askTree source fun tree => .group (tree.leafOf? id)
  | .pathOf id => askTree source fun tree => .groups (tree.pathOf id)
  | .isExpanded k => fun t => (.flag ((t.sync source).opened.contains k), t.sync source)
  | .rows => askRows source fun v => .rows v.rows
  | .size => askRows source fun v => .count v.size
  | .first => askRows source fun v => .row v.first?
  | .last => askRows source fun v => .row v.last?
  | .next r => askRows source fun v => .row (v.next? r)
  | .previous r => askRows source fun v => .row (v.previous? r)
  | .isFirst r => askRows source fun v => .flag (v.isFirst r)
  | .isLast r => askRows source fun v => .flag (v.isLast r)
  | .positionOf r => askRows source fun v => .position (v.position? r)
  | .rowAt position =>
    askRows source fun v =>
      match v.get? position with
      | some r => .row (some r)
      | none => .failure (.outOfRange position v.size)
  | .outline options => fun t =>
    (.text (Outline.text options ((t.sync source).tree source) (t.sync source).opened),
      t.sync source)
  | .settings => fun t => (.settings t.settings, t)
  | .sourceSize => fun t => (.count source.items.length, t)
  | .walk =>
    askRows source fun v =>
      .walk (marks v (v.size + 1) v.first?) (backward v (v.size + 1) v.last?)

end PlainTable

/-- The source of the reference and its tables. -/
structure PlainSession where
  source : PlainSource
  tables : List PlainTable

namespace PlainSession

/-- Every table has a change to apply. -/
def announce (s : PlainSession) : PlainSession :=
  { s with tables := s.tables.map ({ · with pending := true }) }

/-- Other items, which every table has to apply. -/
def exchange (s : PlainSession) (items : List Item) : PlainSession :=
  announce { s with source := { s.source with items } }

/-- Appends an item unless its identifier is taken. -/
def addNew (items : List Item) (i : Item) : List Item :=
  if items.any (·.id = i.id) then items else items ++ [i]

/-- An active source of the items that are the first of their identifier, without tables. -/
def start (items : List Item) : PlainSession := ⟨⟨items.foldl addNew [], .active⟩, []⟩

/-- Where the item of an identifier stands. -/
def position? (s : PlainSession) (id : ItemId) : Option Nat :=
  s.source.items.findIdx? (·.id = id)

/-- Answer to a step on the source and the session after it. -/
def runSource (step : SourceStep) (s : PlainSession) : Answer × PlainSession :=
  let items := s.source.items
  match step with
  | .push i =>
    if items.any (·.id = i.id) then (.flag false, s)
    else (.flag true, s.exchange (items ++ [i]))
  | .insert position i =>
    if items.any (·.id = i.id) then (.flag false, s)
    else (.flag true, s.exchange (items.insertIdx (min position items.length) i))
  | .remove id =>
    match s.position? id with
    | none => (.item none, s)
    | some position => (.item items[position]?, s.exchange (items.eraseIdx position))
  | .modify id edit =>
    match s.position? id with
    | none => (.item none, s)
    | some position =>
      (.item items[position]?, s.exchange (items.modify position (·.edit edit)))
  | .replaceAll new => (.done, s.exchange (new.foldl addNew []))
  | .clear => (.done, s.exchange [])
  | .bind state =>
    if s.source.binding = state then (.done, s)
    else (.done, announce { s with source := { s.source with binding := state } })
  | .announce _ => (.done, s.announce)
  | .loadQuietly new => (.done, { s with source := { s.source with items := new } })
  | .bindQuietly state => (.done, { s with source := { s.source with binding := state } })

/-- Answer to a question to the source. -/
def askSource (query : SourceQuery) (s : PlainSession) : Answer :=
  match query with
  | .contents => .contents (s.source.items.map Item.id) s.source.items.length s.source.binding
  | .item id => .item (s.source.find? id)
  | .value id property => .value (s.source.value? id property)
  | .propertyCount id => .position ((s.source.find? id).map fun i => i.properties.size)

/-- Replaces a table. -/
def put (s : PlainSession) (c : TableId) (t : PlainTable) : PlainSession :=
  { s with tables := s.tables.set c t }

/-- A step or a question for one table. -/
def onTable (s : PlainSession) (c : TableId) (use : PlainTable → Answer × PlainTable) :
    Answer × PlainSession :=
  match s.tables[c]? with
  | none => (.noTable, s)
  | some t => ((use t).1, s.put c (use t).2)

/-- Answer to a step and the session after it. Neither listeners that do nothing nor the rows that
code outside holds are kept. -/
def run (step : Step) (s : PlainSession) : Answer × PlainSession :=
  match step with
  | .source step => s.runSource step
  | .askSource query => (s.askSource query, s)
  | .openTable recipe =>
    match recipe.make? with
    | none => (.failure .settings, s)
    | some settings =>
      (.count s.tables.length, { s with tables := s.tables ++ [.start s.source settings] })
  | .table c step => s.onTable c (PlainTable.step s.source step)
  | .askTable c query => s.onTable c (PlainTable.ask s.source query)
  | .hold c _ => s.onTable c (PlainTable.ask s.source .size)
  | .listen _ channel _ _ =>
    match channel.table? with
    | none => (.done, s)
    | some c => (if c < s.tables.length then .done else .noTable, s)
  | _ => (.noTable, s)

/-- Of two tables put in one place the later one stays. -/
theorem put_put (s : PlainSession) (c : TableId) (t t' : PlainTable) :
    (s.put c t).put c t' = s.put c t' := by
  simp [put]

/-- Putting in a table that is there changes nothing. -/
theorem put_self {s : PlainSession} {c : TableId} {t : PlainTable} (h : s.tables[c]? = some t) :
    s.put c t = s := by
  obtain ⟨hlt, rfl⟩ := List.getElem?_eq_some_iff.1 h
  simp [put]

/-- The table that is put in is there. -/
theorem tables_put {s : PlainSession} {c : TableId} {t : PlainTable} (h : s.tables[c]? = some t)
    (t' : PlainTable) : (s.put c t').tables[c]? = some t' := by
  obtain ⟨hlt, -⟩ := List.getElem?_eq_some_iff.1 h
  simp [put, hlt]

/-- The answers to steps one after the other. -/
def answers : List Step → PlainSession → List Answer
  | [], _ => []
  | step :: rest, s => (s.run step).1 :: answers rest (s.run step).2

end PlainSession

/-- The step changes or asks the source or a table, makes a table, holds its rows or connects a
listener that does nothing; it announces its changes, and a change of an item keeps the item's
identifier. -/
def Step.Plain : Step → Prop
  | .source (.loadQuietly _) | .source (.bindQuietly _) => False
  | .source (.modify id edit) => edit.rename.getD id = id
  | .source _ | .askSource _ | .openTable _ | .table _ _ | .askTable _ _ | .hold _ _ => True
  | .listen _ _ script _ => script = []
  | _ => False

end GroupedRows
