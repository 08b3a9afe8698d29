import GroupedRows.Arrangement
import GroupedRows.GroupTree.Recipe
import GroupedRows.Outline.Text

/-!
# Workbenches

A workbench holds some group trees, one set of open groups, one cached snapshot and
one snapshot in hand, and tries the operations on them one by one. The cache is only
dropped on request, so it may lag behind the open groups.
-/

namespace GroupedRows

/-- Trees, open groups and snapshots under examination. -/
structure Workbench where
  trees : List GroupTree
  expansion : Expansion
  cache : Option Snapshot
  inHand : Snapshot
  log : List LogRecord

namespace Workbench

/-- A step on a workbench; trees are chosen by number. -/
inductive Step where
  | expand (path : GroupPath)
  | collapse (path : GroupPath)
  | isExpanded (path : GroupPath)
  | expandAll (tree : Nat)
  | collapseAll
  | openGroups
  | equals (paths : List GroupPath)
  /-- Takes what is left of some paths in a tree. -/
  | restore (paths : List GroupPath) (tree : Nat)
  /-- Takes what is left of the open groups in a tree. -/
  | restrict (tree : Nat)
  | flatten (tree : Nat)
  | look (tree : Nat)
  | dropCache
  | hasCache
  | cached
  | inHand
  | get (position : Nat)
  | first
  | last
  | position (row : Row)
  | next (row : Row)
  | previous (row : Row)
  | isFirst (row : Row)
  | isLast (row : Row)
  | outline (tree : Nat) (options : Outline.Options)

/-- The answer to a step. -/
inductive Answer where
  | flag (b : Bool)
  | count (n : Nat)
  | position (n : Option Nat)
  | row (r : Option Row)
  | rows (l : List Row)
  | handRows (l : List Row)
  | cachedRows (l : Option (List Row))
  /-- Listed paths. -/
  | paths (l : List GroupPath)
  | openGroups (size : Nat) (paths : List GroupPath)
  | text (s : String)

/-- The bench before the first step, with a tree of each recipe. -/
def start (recipes : List GroupTree.Recipe) : Workbench :=
  ⟨recipes.map GroupTree.Recipe.make, .empty, none, .empty,
    recipes.flatMap GroupTree.Recipe.log⟩

/-- The tree of a number; there is an empty one behind the last. -/
def tree (b : Workbench) (number : Nat) : GroupTree := b.trees.getD number .empty

/-- Logs records. -/
def write (b : Workbench) (records : List LogRecord) : Workbench :=
  { b with log := b.log ++ records }

/-- The tree, the open groups and the cache as one arrangement. -/
def arrangement (b : Workbench) (number : Nat) : Arrangement :=
  ⟨b.tree number, b.expansion, b.cache⟩

/-- Takes the rest of an expansion in a tree. -/
def takeRest (b : Workbench) (saved : Expansion) (number : Nat) : Answer × Workbench :=
  let t := b.tree number
  let rest := saved.restrict t
  (.paths rest.sorted, { b.write (saved.restrictLog t) with expansion := rest })

/-- Runs one step. -/
def runStep (b : Workbench) : Step → Answer × Workbench
  | .expand k => (.flag (!b.expansion.contains k), { b with expansion := b.expansion.expand k })
  | .collapse k =>
    (.flag (b.expansion.contains k), { b with expansion := b.expansion.collapse k })
  | .isExpanded k => (.flag (b.expansion.contains k), b)
  | .expandAll number =>
    let t := b.tree number
    (.paths (Expansion.all t).sorted, { b.write (Expansion.allLog t) with expansion := .all t })
  | .collapseAll => (.count 0, { b with expansion := .empty })
  | .openGroups => (.openGroups b.expansion.size b.expansion.sorted, b)
  | .equals paths => (.flag (b.expansion.same (.ofList paths)), b)
  | .restore paths number => b.takeRest (.ofList paths) number
  | .restrict number => b.takeRest b.expansion number
  | .flatten number =>
    let t := b.tree number
    (.rows (Snapshot.flatten t b.expansion).rows, b.write (Snapshot.flattenLog t b.expansion))
  | .look number =>
    let a := b.arrangement number
    (.rows a.look.rows, { b.write a.lookLog with cache := some a.look, inHand := a.look })
  | .dropCache => (.flag false, { b.write (b.arrangement 0).dropLog with cache := none })
  | .hasCache => (.flag b.cache.isSome, b)
  | .cached => (.cachedRows (b.cache.map Snapshot.rows), b)
  | .inHand => (.handRows b.inHand.rows, b)
  | .get position => (.row (b.inHand.get? position), b)
  | .first => (.row b.inHand.first?, b)
  | .last => (.row b.inHand.last?, b)
  | .position r => (.position (b.inHand.position? r), b)
  | .next r => (.row (b.inHand.next? r), b)
  | .previous r => (.row (b.inHand.previous? r), b)
  | .isFirst r => (.flag (b.inHand.isFirst r), b)
  | .isLast r => (.flag (b.inHand.isLast r), b)
  | .outline number options => (.text (Outline.text options (b.tree number) b.expansion), b)

/-- Runs steps one after the other. -/
def run : List Step → Workbench → List Answer × Workbench
  | [], b => ([], b)
  | step :: rest, b =>
    let (answer, b) := b.runStep step
    let (answers, b) := run rest b
    (answer :: answers, b)

end Workbench

end GroupedRows
