import GroupedRows.Toml.Value

/-!
# TOML documents

A document is a sequence of lines: pairs, headers of tables, headers of repeated
tables, comments and blank lines. Pairs go into the table of the last header, which
joins the tree when the next header or the end of the document closes it.
-/

namespace GroupedRows.Toml

/-- The table that pairs go into, and the tree of the tables before it. -/
structure Draft where
  /-- Finished tables. -/
  tree : Entries
  /-- Header of the open table, its path and last part; none for the table of the document. -/
  header : Option (List String × String)
  /-- The header is one of repeated tables. -/
  repeated : Bool
  /-- Pairs of the open table. -/
  current : Entries

namespace Draft

/-- Nothing read yet. -/
def start : Draft := ⟨[], none, false, []⟩

/-- The tree with the open table in its place. -/
def close (d : Draft) : Option Entries :=
  match d.header with
  | none => some d.current
  | some (path, key) =>
    (Entries.within .implied (fun _ inner =>
      if d.repeated then
        match inner.get? key with
        | some (.tables elements) => some ((), inner.put key (.tables (elements ++ [d.current])))
        | _ => none
      else some ((), inner.put key (.table .stated d.current))) path .stated d.tree).map Prod.snd

/-- Opens the table of a header. It may be new, or implied by longer headers before. -/
def openTable (d : Draft) (path : List String) (key : String) : Option Draft := do
  let tree ← d.close
  let (current, tree) ← Entries.within .implied (fun _ inner =>
    match inner.get? key with
    | none => some ([], inner)
    | some (.table .implied entries) => some (entries, inner)
    | some _ => none) path .stated tree
  some ⟨tree, some (path, key), false, current⟩

/-- Opens one more of repeated tables. -/
def openRepeated (d : Draft) (path : List String) (key : String) : Option Draft := do
  let tree ← d.close
  let (_, tree) ← Entries.within .implied (fun _ inner =>
    match inner.get? key with
    | none => some ((), inner.put key (.tables []))
    | some (.tables _) => some ((), inner)
    | some _ => none) path .stated tree
  some ⟨tree, some (path, key), true, []⟩

/-- Enters a pair into the open table. -/
def assign (d : Draft) (path : List String) (key : String) (node : Node) : Option Draft :=
  (d.current.assign path key node).map fun entries => { d with current := entries }

/-- Reads one line and what it leaves. -/
def readLine (d : Draft) (cs : List Char) : Option (Draft × List Char) :=
  match cs with
  | '[' :: '[' :: rest => do
    let ((path, key), rest) ← dottedKey rest
    match rest with
    | ']' :: ']' :: rest => some (← d.openRepeated path key, ← lineEnd? rest)
    | _ => none
  | '[' :: rest => do
    let ((path, key), rest) ← dottedKey rest
    match rest with
    | ']' :: rest => some (← d.openTable path key, ← lineEnd? rest)
    | _ => none
  | cs => do
    let ((path, key), rest) ← dottedKey cs
    match rest with
    | '=' :: rest =>
      let (node, rest) ← value 0 rest.length (skipBlanks rest)
      let rest ← lineEnd? rest
      some (← d.assign path key node, rest)
    | _ => none

/-- Reads all lines; `fuel` bounds their number. -/
def readLines : Nat → Draft → List Char → Option Draft
  | 0, d, cs => if cs.isEmpty then some d else none
  | fuel + 1, d, cs => do
    match ← skipLines cs.length cs with
    | [] => some d
    | cs =>
      let (d, rest) ← d.readLine cs
      readLines fuel d rest

end Draft

/-- The entries of a whole document, or nothing if it is not one. -/
def read? (text : String) : Option Entries :=
  let cs := match text.toList with
    | '\ufeff' :: rest => rest
    | cs => cs
  (Draft.readLines cs.length .start cs).bind Draft.close

end GroupedRows.Toml
