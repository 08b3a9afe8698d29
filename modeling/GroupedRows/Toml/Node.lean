import GroupedRows.OrderedMap

/-!
# The tree of a TOML document

Every key leads to a value, a table or an array of tables. Tables remember how they
came about, because only tables that no header states may be entered by dotted keys.
-/

namespace GroupedRows.Toml

/-- How a table came about. -/
inductive Origin where
  /-- By a header of its own. -/
  | stated
  /-- On the way to the table of a longer header. -/
  | implied
  /-- By a dotted key. -/
  | dotted
  deriving DecidableEq, Repr

/-- What a key leads to. Numbers other than integers and moments keep no content. -/
inductive Node where
  | text (s : String)
  | integer (n : Int)
  | float
  | boolean (b : Bool)
  | moment
  | array (elements : List Node)
  /-- A table written as a value, which nothing can extend. -/
  | inline (entries : List (String × Node))
  | table (origin : Origin) (entries : List (String × Node))
  /-- The tables of repeated headers. -/
  | tables (elements : List (List (String × Node)))

/-- Keys with what they lead to. -/
abbrev Entries := List (String × Node)

namespace Entries

/-- What a key leads to. -/
def get? (e : Entries) (key : String) : Option Node := OrderedMap.find key e

/-- Lets a key lead to a node. -/
def put (e : Entries) (key : String) (node : Node) : Entries := OrderedMap.put key node e

/-- Changes the entries that a path leads to, with the origin of their table. Missing tables are
made on the way, with origin `made`; of repeated tables the last is entered. A value blocks the
way, and so does a stated table on a path of dotted keys. -/
def within {α : Type} (made : Origin) (change : Origin → Entries → Option (α × Entries)) :
    List String → Origin → Entries → Option (α × Entries)
  | [], origin, entries => change origin entries
  | key :: path, _, entries =>
    match get? entries key with
    | none =>
      (within made change path made []).map fun r => (r.1, put entries key (.table made r.2))
    | some (.table origin inner) =>
      if made = .dotted ∧ origin = .stated then none
      else (within made change path origin inner).map fun r =>
        (r.1, put entries key (.table origin r.2))
    | some (.tables elements) =>
      elements.getLast?.bind fun last =>
        (within made change path .stated last).map fun r =>
          (r.1, put entries key (.tables (elements.dropLast ++ [r.2])))
    | some _ => none

/-- Enters a new key at the end of a path of dotted keys. The last table must be the one that the
keys stand in, or else one that only dotted keys made. -/
def assign (entries : Entries) (path : List String) (key : String) (node : Node) :
    Option Entries :=
  (within .dotted (fun origin inner =>
    if decide (origin = .dotted) == path.isEmpty then none
    else if (get? inner key).isSome then none
    else some ((), put inner key node)) path .stated entries).map Prod.snd

end Entries

end GroupedRows.Toml
