import GroupedRows.GroupTree.Walk
import GroupedRows.Log.Record

/-!
# Expansion

An expansion is the set of groups that are open. Only membership can be observed; a
path may be a member whether or not some tree has a group of that path.
-/

namespace GroupedRows

/-- A set of open groups, kept as a list without repetition. -/
structure Expansion where
  paths : List GroupPath
  nodup : paths.Nodup

namespace Expansion

/-- Nothing is open. -/
def empty : Expansion := ⟨[], List.nodup_nil⟩

/-- Whether a group is open. -/
def contains (e : Expansion) (k : GroupPath) : Bool := e.paths.contains k

/-- Number of open groups. -/
def size (e : Expansion) : Nat := e.paths.length

instance : Membership GroupPath Expansion := ⟨fun e k => k ∈ e.paths⟩

instance (k : GroupPath) (e : Expansion) : Decidable (k ∈ e) :=
  inferInstanceAs (Decidable (k ∈ e.paths))

/-- The open groups are the listed paths. -/
theorem mem_def {k : GroupPath} {e : Expansion} : k ∈ e ↔ k ∈ e.paths := Iff.rfl

@[simp] theorem contains_iff {k : GroupPath} {e : Expansion} : e.contains k = true ↔ k ∈ e := by
  simp [contains, mem_def]

/-- Opens a group. -/
def expand (e : Expansion) (k : GroupPath) : Expansion :=
  if h : k ∈ e.paths then e else ⟨k :: e.paths, List.nodup_cons.2 ⟨h, e.nodup⟩⟩

/-- Closes a group. -/
def collapse (e : Expansion) (k : GroupPath) : Expansion :=
  ⟨e.paths.erase k, e.nodup.erase k⟩

@[simp] theorem not_mem_empty (k : GroupPath) : k ∉ empty := List.not_mem_nil

@[simp] theorem mem_expand {j k : GroupPath} {e : Expansion} : j ∈ e.expand k ↔ j = k ∨ j ∈ e := by
  unfold Expansion.expand
  split
  · rename_i h
    simp only [iff_or_self]
    exact fun hj => hj ▸ h
  · simp [mem_def]

@[simp] theorem mem_collapse {j k : GroupPath} {e : Expansion} : j ∈ e.collapse k ↔ j ≠ k ∧ j ∈ e :=
  e.nodup.mem_erase_iff

/-- The groups of a list are open. -/
def ofList (paths : List GroupPath) : Expansion := paths.foldl Expansion.expand empty

/-- Groups opened one after the other are open, and so are those that were. -/
theorem mem_foldl_expand {k : GroupPath} {paths : List GroupPath} {e : Expansion} :
    k ∈ paths.foldl Expansion.expand e ↔ k ∈ paths ∨ k ∈ e := by
  induction paths generalizing e with
  | nil => simp
  | cons p rest ih => rw [List.foldl_cons, ih, mem_expand, List.mem_cons]; grind

@[simp] theorem mem_ofList {k : GroupPath} {paths : List GroupPath} :
    k ∈ ofList paths ↔ k ∈ paths := by
  simp [ofList, mem_foldl_expand]

/-- Whether the same groups are open. -/
def same (e f : Expansion) : Bool := e.paths.all f.contains && f.paths.all e.contains

/-- Every group of a tree is open, and nothing else. -/
def all (t : GroupTree) : Expansion := ofList t.allGroups

/-- What is left of an expansion in a tree: the open paths that name groups. -/
def restrict (e : Expansion) (t : GroupTree) : Expansion :=
  if t.hasGroups then ⟨e.paths.filter t.contains, List.filter_sublist.nodup e.nodup⟩ else empty

/-- What is left are the open groups of the tree, if it has groups at all. -/
theorem mem_restrict {e : Expansion} {t : GroupTree} {k : GroupPath} :
    k ∈ e.restrict t ↔ t.hasGroups = true ∧ t.contains k = true ∧ k ∈ e := by
  unfold restrict
  split
  · rename_i h
    simp only [mem_def, List.mem_filter, h, true_and]
    exact And.comm
  · rename_i h
    simp [h]

/-- The listed paths of an expansion. -/
def sorted (e : Expansion) : List GroupPath := GroupPath.sort e.paths

/-- Records of opening every group of a tree. -/
def allLog (t : GroupTree) : List LogRecord := [.entry (.allExpanded (all t).size)]

/-- Records of restricting an expansion to a tree, which is silent without groups. -/
def restrictLog (e : Expansion) (t : GroupTree) : List LogRecord :=
  if t.hasGroups then
    let kept := (e.restrict t).size
    [.entry (.expansionRestored kept (e.size - kept))]
  else []

end Expansion

end GroupedRows
