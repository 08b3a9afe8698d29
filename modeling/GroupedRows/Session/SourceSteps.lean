import GroupedRows.Session.Emission

/-!
# Steps on the source

A step that changes the items announces the change when it has been made; a refused
step announces nothing. Taking the binding that is already there is no change.
-/

namespace GroupedRows.Session

open Call

/-- Announces a change of the items. -/
def announce (c : ItemChange) : Call Unit := do
  change (·.writeEntry (.itemsChanged c))
  send (.items c)

/-- Appends an item unless its identifier is taken. -/
def push (i : Item) : Call Bool := do
  let store := (← read).source.store
  if store.contains i.id then
    change (·.writeEntry (.pushRejected i.id))
    return false
  else
    change (·.setStore (store.push i))
    announce (.added store.size 1)
    return true

/-- Inserts an item unless its identifier is taken; a position behind the end means the end. -/
def insert (position : Nat) (i : Item) : Call Bool := do
  let store := (← read).source.store
  if store.contains i.id then
    change (·.writeEntry (.insertRejected i.id))
    return false
  else
    change (·.setStore (store.insert position i))
    announce (.added (store.clamp position) 1)
    return true

/-- Removes the item at the position noted for an identifier. -/
def remove (id : ItemId) : Call (Option Item) := do
  let store := (← read).source.store
  match store.positions.get? id with
  | none => return none
  | some position =>
    change (·.setStore (store.removeAt position))
    announce (.removed position 1)
    return store.items[position]?

/-- Changes the item at the position noted for an identifier, and returns the item as it was. -/
def modify (id : ItemId) (edit : Item.Edit) : Call (Option Item) := do
  let store := (← read).source.store
  match store.positions.get? id with
  | none => return none
  | some position =>
    change (·.setStore (store.modifyAt position (·.edit edit)))
    announce .refreshed
    return store.items[position]?

/-- Takes the items of a list that are the first of their identifier. -/
def replaceAll (items : List Item) : Call Unit := do
  change fun s => (s.write (storeLog items)).setStore (.ofItems items)
  announce .refreshed

/-- Removes every item. -/
def clear : Call Unit := do
  change (·.setStore .empty)
  announce .cleared

/-- Takes a binding and announces it if it is another one. -/
def bind (state : Binding) : Call Unit := do
  let (changed, binding) := (← read).source.binding.set state
  change (·.modifySource fun source => { source with binding := binding })
  if changed then
    change (·.writeEntry (.bindingChanged state))
    send (.binding state)

/-- Takes a binding without a word. -/
def bindQuietly (state : Binding) (s : Session) : Session :=
  s.modifySource fun source => { source with binding := source.binding.setQuietly state }

/-- Runs a step on the source. -/
def runSource (step : SourceStep) : Call Answer :=
  match step with
  | .push i => return .flag (← push i)
  | .insert position i => return .flag (← insert position i)
  | .remove id => return .item (← remove id)
  | .modify id edit => return .item (← modify id edit)
  | .replaceAll items => do replaceAll items; return .done
  | .clear => do clear; return .done
  | .bind state => do bind state; return .done
  | .announce c => do send (.items c); return .done
  | .loadQuietly items => do change (·.setStore (.ofAll items)); return .done
  | .bindQuietly state => do change (bindQuietly state); return .done

/-- Answers a question to the source. -/
def askSource (query : SourceQuery) (s : Session) : Answer :=
  let store := s.source.store
  match query with
  | .contents => .contents store.ids store.size s.source.binding.value
  | .item id => .item (store.get? id)
  | .value id property => .value (store.value? id property)
  | .propertyCount id => .position ((store.get? id).map fun i => i.properties.size)

end GroupedRows.Session
