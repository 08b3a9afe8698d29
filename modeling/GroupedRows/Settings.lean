import GroupedRows.Toml.Document

/-!
# Settings of a table

Settings say how a table is grouped at first, whether grouping opens every group, and
whether open groups stay open when the tree is built anew. They are changed one by
one or read from a TOML document, in which other keys have no meaning.
-/

namespace GroupedRows

/-- The settings of a table. -/
structure Settings where
  /-- Grouping properties of a new table, outermost first. -/
  properties : List String
  /-- Grouping opens every group. -/
  expandOnGrouping : Bool
  /-- Groups that exist before and after a rebuild stay open. -/
  restoreExpansion : Bool
  deriving DecidableEq, Repr

namespace Settings

/-- No grouping; open groups are kept. -/
def default : Settings := ⟨[], false, true⟩

/-- A new value of one setting. -/
inductive Change where
  | properties (names : List String)
  | expandOnGrouping (on : Bool)
  | restoreExpansion (on : Bool)
  deriving Repr

/-- Replaces the one setting. -/
def apply (s : Settings) : Change → Settings
  | .properties names => { s with properties := names }
  | .expandOnGrouping on => { s with expandOnGrouping := on }
  | .restoreExpansion on => { s with restoreExpansion := on }

/-- The texts of an array that holds nothing else. -/
def texts? : Toml.Node → Option (List String)
  | .array elements => elements.mapM fun
    | .text s => some s
    | _ => none
  | _ => none

/-- The content of a truth value. -/
def boolean? : Toml.Node → Option Bool
  | .boolean b => some b
  | _ => none

/-- A setting of a document: the default if its key is missing, nothing if its value is of the
wrong kind. -/
def field? {α : Type} (entries : Toml.Entries) (key : String) (read : Toml.Node → Option α)
    (default : α) : Option α :=
  match entries.get? key with
  | none => some default
  | some node => read node

/-- The settings that the entries of a document make. -/
def ofEntries? (entries : Toml.Entries) : Option Settings := do
  some {
    properties := ← field? entries "group_properties" texts? default.properties
    expandOnGrouping := ← field? entries "expand_all_on_group" boolean? default.expandOnGrouping
    restoreExpansion := ← field? entries "restore_expansion" boolean? default.restoreExpansion }

/-- The settings that a document makes, if it is one. -/
def ofToml? (text : String) : Option Settings := (Toml.read? text).bind ofEntries?

/-- Where settings come from. -/
inductive Recipe where
  /-- Changes to the default, one after the other. -/
  | changes (steps : List Change)
  /-- The text of a document. -/
  | toml (text : String)
  deriving Repr

/-- The settings of a recipe; only a document can fail. -/
def Recipe.make? : Recipe → Option Settings
  | .changes steps => some (steps.foldl apply default)
  | .toml text => ofToml? text

end Settings

end GroupedRows
