import GroupedRows.Notice
import GroupedRows.Outline.Lead
import GroupedRows.Row
import GroupedRows.Settings

/-!
# Steps of a session

A step changes the source or a table, asks a question, or connects and disconnects
listeners. A listener is a script of steps that is played on each of its first calls,
so scripts nest to any depth.
-/

namespace GroupedRows

/-- A change of the source. -/
inductive SourceStep where
  | push (item : Item)
  | insert (position : Nat) (item : Item)
  | remove (id : ItemId)
  | modify (id : ItemId) (edit : Item.Edit)
  | replaceAll (items : List Item)
  | clear
  | bind (state : Binding)
  /-- Announces a change that has not happened. -/
  | announce (change : ItemChange)
  /-- Takes other items, repeated identifiers included, and announces nothing. -/
  | loadQuietly (items : List Item)
  /-- Takes another binding and announces nothing. -/
  | bindQuietly (state : Binding)

/-- A question to the source. -/
inductive SourceQuery where
  | contents
  | item (id : ItemId)
  | value (id : ItemId) (property : String)
  | propertyCount (id : ItemId)

/-- A change of a table. -/
inductive TableStep where
  | groupBy (properties : List String)
  | refresh
  | expandAll
  | collapseAll
  | expand (path : GroupPath)
  | collapse (path : GroupPath)
  | expandToItem (id : ItemId)

/-- A question to a table. -/
inductive TableQuery where
  | hasGroups
  | properties
  | roots
  | contains (path : GroupPath)
  | isGroup (row : Row)
  | groupOf (row : Row)
  | hasChildren (path : GroupPath)
  | children (path : GroupPath)
  | ownItems (path : GroupPath)
  | items (path : GroupPath)
  | property (path : GroupPath)
  | value (path : GroupPath)
  | itemIds (path : GroupPath)
  | itemCount (path : GroupPath)
  | leafOf (id : ItemId)
  | pathOf (id : ItemId)
  | isExpanded (path : GroupPath)
  | rows
  | size
  | first
  | last
  | next (row : Row)
  | previous (row : Row)
  | isFirst (row : Row)
  | isLast (row : Row)
  | positionOf (row : Row)
  | rowAt (position : Nat)
  | outline (options : Outline.Options)
  | settings
  | sourceSize
  /-- All rows, once forwards and once backwards, by single steps. -/
  | walk

/-- One step of a session. -/
inductive Step where
  | source (step : SourceStep)
  | askSource (query : SourceQuery)
  | openTable (recipe : Settings.Recipe)
  | closeTable (c : TableId)
  | table (c : TableId) (step : TableStep)
  | askTable (c : TableId) (query : TableQuery)
  | block (channel : Channel) (on : Bool)
  | connections (channel : Channel)
  | listen (name : String) (channel : Channel) (script : List Step) (times : Nat)
  | unlisten (name : String) (channel : Channel)
  /-- Keeps the visible rows of a table under a name. -/
  | hold (c : TableId) (name : String)
  | held (name : String)

mutual

/-- How many plays of scripts one step can bring about: each play of a listener that it connects,
and those that the steps of the play bring about. -/
def Step.plays : Step → Nat
  | .listen _ _ script times => times * (1 + Step.playsOf script)
  | _ => 0

/-- How many plays of scripts a list of steps can bring about. -/
def Step.playsOf : List Step → Nat
  | [] => 0
  | s :: rest => s.plays + Step.playsOf rest

end

end GroupedRows
