import GroupedRows.Value

/-!
# Group paths

A group is named by the properties and values that its items share, root first.
The path is never empty; its parent drops the last facet, and one group lies above
another exactly when its path is a proper prefix of the other's.
-/

namespace GroupedRows

/-- One level of a group path: a property and the value that the group's items share. -/
structure Facet where
  property : String
  value : Value
  deriving DecidableEq, Repr

/-- What a group header shows for one level. -/
def Facet.label (f : Facet) : String := f.property ++ "=" ++ f.value.label

/-- Facets are listed by property, then by value. -/
def Facet.order (f g : Facet) : Ordering :=
  (compare f.property g.property).then (f.value.order g.value)

/-- A nonempty list of facets, root first. -/
structure GroupPath where
  facets : List Facet
  ne_nil : facets ≠ []
  deriving DecidableEq

namespace GroupPath

/-- Two paths with the same facets are the same path. -/
theorem ext {a b : GroupPath} (h : a.facets = b.facets) : a = b := by
  cases a
  cases b
  simpa using h

/-- The path with the given facets; there is none without a facet. -/
def ofFacets? (facets : List Facet) : Option GroupPath :=
  if h : facets = [] then none else some ⟨facets, h⟩

/-- The path of a group without a group above it. -/
def root (property : String) (value : Value) : GroupPath := ⟨[⟨property, value⟩], by simp⟩

/-- The path one level below. -/
def child (k : GroupPath) (property : String) (value : Value) : GroupPath :=
  ⟨k.facets ++ [⟨property, value⟩], by simp⟩

/-- The path below an optional parent: a root when there is none. -/
def below : Option GroupPath → String → Value → GroupPath
  | none => root
  | some k => k.child

/-- The path one level above; a root has none. -/
def parent? (k : GroupPath) : Option GroupPath := ofFacets? k.facets.dropLast

/-- Number of levels, at least one. -/
def depth (k : GroupPath) : Nat := k.facets.length

/-- The facet that tells the group from its siblings. -/
def last (k : GroupPath) : Facet := k.facets.getLast k.ne_nil

/-- The property of the group's own level. -/
def property (k : GroupPath) : String := k.last.property

/-- The value of the group's own level. -/
def value (k : GroupPath) : Value := k.last.value

/-- Whether `a` is a proper prefix of `b`. -/
def isAncestorOf (a b : GroupPath) : Bool :=
  a.depth < b.depth && a.facets.isPrefixOf b.facets

/-- The path grown from its first facet by one child for each further facet. -/
def grow? : List Facet → Option GroupPath
  | [] => none
  | f :: rest => some (rest.foldl (fun k g => k.child g.property g.value) (root f.property f.value))

/-- What stands for the whole path in messages. -/
def label (k : GroupPath) : String := " / ".intercalate (k.facets.map Facet.label)

/-- The label marked as that of a group. -/
def inspect (k : GroupPath) : String := "GroupKey(" ++ k.label ++ ")"

/-- Lists of facets in dictionary order, a proper prefix first. -/
def orderFacets : List Facet → List Facet → Ordering
  | [], [] => .eq
  | [], _ :: _ => .lt
  | _ :: _, [] => .gt
  | f :: fs, g :: gs => (f.order g).then (orderFacets fs gs)

/-- Paths in the order of their facet lists. -/
def sort (paths : List GroupPath) : List GroupPath :=
  paths.mergeSort fun a b => (orderFacets a.facets b.facets).isLE

/-- A path has a facet at least. -/
theorem depth_pos (k : GroupPath) : 0 < k.depth :=
  List.length_pos_iff.2 k.ne_nil

@[simp] theorem depth_root (property : String) (value : Value) :
    (root property value).depth = 1 := rfl

@[simp] theorem depth_child (k : GroupPath) (property : String) (value : Value) :
    (k.child property value).depth = k.depth + 1 := by
  simp [depth, child]

@[simp] theorem facets_child (k : GroupPath) (property : String) (value : Value) :
    (k.child property value).facets = k.facets ++ [⟨property, value⟩] := rfl

@[simp] theorem last_child (k : GroupPath) (property : String) (value : Value) :
    (k.child property value).last = ⟨property, value⟩ := by
  simp [last, child]

/-- Facets make a path exactly if they are the facets of one. -/
theorem ofFacets?_eq_some_iff {facets : List Facet} {k : GroupPath} :
    ofFacets? facets = some k ↔ facets = k.facets := by
  unfold ofFacets?
  split
  · rename_i h
    simp only [reduceCtorEq, false_iff]
    exact fun e => k.ne_nil (e ▸ h)
  · rw [Option.some.injEq]
    exact ⟨fun e => e ▸ rfl, fun e => ext e⟩

@[simp] theorem ofFacets?_facets (k : GroupPath) : ofFacets? k.facets = some k :=
  ofFacets?_eq_some_iff.2 rfl

/-- A child's parent is the path it was made from. -/
@[simp] theorem parent?_child (k : GroupPath) (property : String) (value : Value) :
    (k.child property value).parent? = some k := by
  simp [parent?, child]

/-- A path is its parent with its last facet. -/
theorem parent?_eq_some_iff {k p : GroupPath} :
    k.parent? = some p ↔ k = p.child k.property k.value := by
  constructor
  · intro h
    have hf := ofFacets?_eq_some_iff.1 h
    apply ext
    rw [facets_child, ← hf]
    exact (List.dropLast_concat_getLast k.ne_nil).symm
  · intro h
    rw [h, parent?_child]

/-- A parent is one level shorter. -/
theorem depth_of_parent? {k p : GroupPath} (h : k.parent? = some p) : k.depth = p.depth + 1 := by
  rw [parent?_eq_some_iff.1 h, depth_child]

/-- The parent, the parent's parent and so on up to the root. -/
def ancestors (k : GroupPath) : List GroupPath :=
  match _h : k.parent? with
  | none => []
  | some p => p :: p.ancestors
termination_by k.depth
decreasing_by
  rw [depth_of_parent? _h]
  exact Nat.lt_succ_self _

end GroupPath

end GroupedRows
