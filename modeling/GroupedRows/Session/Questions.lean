import GroupedRows.Outline.Text
import GroupedRows.Session.TableSteps

/-!
# Questions to a table

Questions about groups are answered in the tree, questions about rows in a snapshot of
the visible rows. Both apply a pending change of the source first, and so can announce
a layout; only over an inactive source the rows are none and the tree is left alone.
-/

namespace GroupedRows.Session

open Call

/-- The table looks at its rows: a snapshot that is still good stays, or else one is taken. -/
def look (c : TableId) (s : Session) : Session :=
  match s.table? c with
  | none => s
  | some t =>
    let a := t.arrangement
    let rebuilt := if a.snapshot.isSome then [] else [.entry (.rowsRebuilt a.look.size)]
    (s.write (a.lookLog ++ rebuilt)).arrange c Arrangement.looked

/-- The snapshot of a table's visible rows, taken now or still good. -/
def visible (c : TableId) : Call Snapshot := do
  if (← read).source.isActive then
    sync c
    let s ← read
    change (look c)
    return ((s.table? c).map fun t => t.arrangement.look).getD .empty
  else return .empty

/-- Answers a question by the tree. -/
def askTree (c : TableId) (answer : GroupTree → Answer) : Call Answer := do
  sync c
  return answer ((← read).tree c)

/-- Answers a question by the snapshot of the visible rows. -/
def askRows (c : TableId) (answer : Snapshot → Answer) : Call Answer :=
  return answer (← visible c)

/-- Answers a question about a group, which must be one of the tree. -/
def askGroup (c : TableId) (k : GroupPath) (answer : Answer) : Call Answer :=
  askTree c fun t => if t.contains k then answer else .failure (.unknownGroup k)

/-- Answers a question by the items that identifiers of the tree name. -/
def askItems (c : TableId) (ids : GroupTree → List ItemId) : Call Answer := do
  sync c
  let s ← read
  return .items (s.source.itemsOf (ids (s.tree c)))

/-- At most `limit` rows from a row on, each by the row behind the one before. -/
def walkForward (c : TableId) : Nat → Option Row → Call (List WalkMark)
  | 0, _ => return []
  | _ + 1, none => return []
  | limit + 1, some r => do
    let following ← visible c
    let placed ← visible c
    let first ← visible c
    let last ← visible c
    let marks ← walkForward c limit (following.next? r)
    return ⟨placed.position? r, first.isFirst r, last.isLast r⟩ :: marks

/-- At most `limit` rows from a row on, each by the row before the one behind. -/
def walkBackward (c : TableId) : Nat → Option Row → Call (List Row)
  | 0, _ => return []
  | _ + 1, none => return []
  | limit + 1, some r => do
    let preceding ← visible c
    let rows ← walkBackward c limit (preceding.previous? r)
    return r :: rows

/-- Walks over all rows by single steps, forwards and backwards; one row more than there are is
the limit. -/
def walk (c : TableId) : Call Answer := do
  let all ← visible c
  let first ← visible c
  let forward ← walkForward c (all.size + 1) first.first?
  let last ← visible c
  let backward ← walkBackward c (all.size + 1) last.last?
  return .walk forward backward

/-- The outline of a table's tree. -/
def outline (c : TableId) (options : Outline.Options) : Call Answer := do
  sync c
  match (← read).table? c with
  | none => return .noTable
  | some t => return .text (Outline.text options t.tree t.arrangement.expansion)

/-- Answers a question to a table. -/
def askTable (c : TableId) (query : TableQuery) : Call Answer :=
  match query with
  | .hasGroups => askTree c fun t => .flag t.hasGroups
  | .properties => askTree c fun t => .texts t.properties
  | .roots => askTree c fun t => .groups t.roots
  | .contains k => askTree c fun t => .flag (t.contains k)
  | .isGroup (.item _) => return .flag false
  | .isGroup (.group k) => askTree c fun t => .flag (t.contains k)
  | .groupOf (.item id) => return .failure (.notAGroup (.item id))
  | .groupOf (.group k) => askGroup c k (.group (some k))
  | .hasChildren k => askTree c fun t => .flag (t.hasChildren k)
  | .children k => askTree c fun t => .groups (t.children k)
  | .ownItems k => askItems c fun t => t.ownItems k
  | .items k => askItems c fun t => t.allItems k
  | .property k => askGroup c k (.text k.property)
  | .value k => askGroup c k (.value (some k.value))
  | .itemIds k => askTree c fun t => .ids (t.allItems k)
  | .itemCount k => askTree c fun t => .count (t.itemCount k)
  | .leafOf id => askTree c fun t => .group (t.leafOf? id)
  | .pathOf id => askTree c fun t => .groups (t.pathOf id)
  | .isExpanded k => do
    sync c
    return .flag (((← read).table? c).any fun t => t.arrangement.isExpanded k)
  | .rows => askRows c fun v => .rows v.rows
  | .size => askRows c fun v => .count v.size
  | .first => askRows c fun v => .row v.first?
  | .last => askRows c fun v => .row v.last?
  | .next r => askRows c fun v => .row (v.next? r)
  | .previous r => askRows c fun v => .row (v.previous? r)
  | .isFirst r => askRows c fun v => .flag (v.isFirst r)
  | .isLast r => askRows c fun v => .flag (v.isLast r)
  | .positionOf r => askRows c fun v => .position (v.position? r)
  | .rowAt position =>
    askRows c fun v =>
      match v.get? position with
      | some r => .row (some r)
      | none => .failure (.outOfRange position v.size)
  | .outline options => outline c options
  | .settings =>
    return (((← read).table? c).map fun t => .settings t.settings).getD .noTable
  | .sourceSize => return .count (← read).source.store.size
  | .walk => walk c

end GroupedRows.Session
