import GroupedRows.Expansion
import GroupedRows.Outline.Lead

/-!
# The outline of a group tree

The outline is a header and one entry for each group, parents before children. An
entry shows the lead, whether the group is open, its own facet and the options' extras.
-/

namespace GroupedRows.Outline

/-- Tells the last element of a list from the others. -/
def flagLast {α : Type} : List α → List (α × Bool)
  | [] => []
  | [a] => [(a, true)]
  | a :: rest => (a, false) :: flagLast rest

/-- The line of a group. -/
def groupEntry (o : Options) (t : GroupTree) (e : Expansion) (flags : List Bool) (last : Bool)
    (k : GroupPath) : String :=
  String.ofList (nodeLead o flags last) ++ (if e.contains k then "[-]" else "[+]") ++ " " ++
    k.last.label ++ (if o.showCounts then " (" ++ toString (t.itemCount k) ++ ")" else "") ++ "\n"

/-- The line of an item of a group. -/
def itemEntry (o : Options) (flags : List Bool) (id : ItemId) : String :=
  String.ofList (detailLead o flags) ++ "." ++ id.inspect ++ "\n"

/-- Whether groups of a level are left out. -/
def Options.cuts (o : Options) (depth : Nat) : Bool := o.maxDepth.any (· < depth)

/-- A sheet on which an outline is written: the entries so far, and one flag for each group that is
open, the outermost first. -/
structure Sheet where
  flags : List Bool
  entries : List String

namespace Sheet

/-- Adds entries. -/
def write (s : Sheet) (entries : List String) : Sheet := { s with entries := s.entries ++ entries }

/-- Opens a group with its flag. -/
def push (s : Sheet) (last : Bool) : Sheet := { s with flags := s.flags ++ [last] }

/-- Closes the group that was opened last. -/
def pop (s : Sheet) : Sheet := { s with flags := s.flags.dropLast }

/-- Adds the entries of a group and of the `levels` levels from it on. While the groups below it are
added the group is open, so all of them work on one list of flags. -/
def addGroup (o : Options) (t : GroupTree) (e : Expansion) :
    Nat → Sheet → GroupPath × Bool → Sheet
  | 0, s, _ => s
  | levels + 1, s, (k, last) =>
    if o.cuts (s.flags.length + 1) then s
    else
      let opened := (s.write [groupEntry o t e s.flags last k]).push last
      let listed :=
        if o.showItems then opened.write ((t.ownItems k).map (itemEntry o opened.flags)) else opened
      ((flagLast (t.children k)).foldl (addGroup o t e levels) listed).pop

end Sheet

/-- The first line: how many groups and items there are, and what groups them. -/
def header (t : GroupTree) : String :=
  if t.hasGroups then
    "Group Tree (" ++ toString t.groupCount ++ " groups, " ++ toString t.items.length ++
      " items) by " ++ ", ".intercalate t.properties ++ ":\n"
  else "Group Tree (ungrouped, " ++ toString t.items.length ++ " items)\n"

/-- Entries of all groups. -/
def entries (o : Options) (t : GroupTree) (e : Expansion) : List String :=
  if t.hasGroups then ((flagLast t.roots).foldl (Sheet.addGroup o t e t.levels) ⟨[], []⟩).entries
  else []

/-- The outline of a tree with the open groups marked. -/
def text (o : Options) (t : GroupTree) (e : Expansion) : String :=
  String.join (header t :: entries o t e)

end GroupedRows.Outline
