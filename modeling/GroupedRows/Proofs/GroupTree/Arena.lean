import GroupedRows.Proofs.GroupTree.Lookups
import GroupedRows.Proofs.GroupTree.Preorder
import GroupedRows.Snapshot

/-!
# The arena is closed

Nodes refer to each other by path, so a look-up might find nothing and a walk might go
round. Neither happens: after any number of items all paths that nodes and the tree list
are in the arena, each in its one place and one level below the path that lists it. While
an item is on its way down, every group that is looked up has been made before. So walks
end by themselves, within as many levels as there are properties.
-/

namespace GroupedRows.GroupTree

open GroupPath

/-- The node of a path stands in its place, and it holds what its level calls for. -/
structure Placed (t : GroupTree) (k : GroupPath) (n : GroupNode) : Prop where
  path : n.path = k
  parent : ∀ p, n.parent = some p → t.contains p = true
  /-- The parent, or the tree for a root, lists the path once. -/
  listed_once : (t.listed n.parent).count k = 1
  listed_nowhere_else : ∀ q, k ∈ t.listed q → q = n.parent
  depth_le : k.depth ≤ t.levels
  above : k.depth < t.levels → n.children ≠ [] ∧ n.ownItems = []
  deepest : k.depth = t.levels → n.children = [] ∧ n.ownItems ≠ []

/-- Paths that are listed are in the arena, one facet longer than the path that lists them, and
every node is in its place. -/
structure Closed (t : GroupTree) : Prop where
  contains_of_mem_listed : ∀ q k, k ∈ t.listed q → t.contains k = true
  one_longer : ∀ q k, k ∈ t.listed q → k.parent? = q ∧ k.depth = (stem q).length + 1
  placed : ∀ k n, t.node? k = some n → t.Placed k n

/-- Every look-up by path finds a node while an item walks down: of the parent that lists a new
group, of the group that counts the item, and of the deepest group that is to hold it. -/
def FindsNodes (value : String → Value) : List String → Option GroupPath → GroupTree → Prop
  | [], reached, t => ∀ leaf, reached = some leaf → t.contains leaf = true
  | property :: rest, reached, t =>
    let path := below reached property (value property)
    (t.contains path = false → ∀ p, reached = some p →
      (t.nodes.insert path ⟨path, reached, [], [], 0⟩).contains p = true) ∧
    (if t.contains path then t else t.addGroup reached path).contains path = true ∧
    FindsNodes value rest (some path) (t.visit reached path)

/-! ## On the way down -/

/-- The group that an item has reached is in the arena. -/
theorem Grown.contains_reached {t : GroupTree} {paths : List (List Facet)}
    {reached : Option GroupPath} (h : Grown t (paths ++ [stem reached])) {p : GroupPath}
    (hp : reached = some p) : t.contains p = true := by
  subst hp
  exact (h.contains_iff p).2 ⟨_, List.mem_append_right _ (List.mem_singleton_self _),
    List.prefix_rfl⟩

/-- A new group can be found at once, to count the item. -/
theorem contains_addGroup_self (t : GroupTree) {reached : Option GroupPath} {path : GroupPath}
    (h : reached ≠ some path) : (t.addGroup reached path).contains path = true := by
  rw [← node?_isSome, node?_addGroup t h, if_pos rfl]
  rfl

/-- Each level that the item visits is on its path, and found by the next look-up. -/
theorem Grown.findsNodes {t : GroupTree} {paths : List (List Facet)} {reached : Option GroupPath}
    (h : Grown t (paths ++ [stem reached])) (value : String → Value) (properties : List String) :
    FindsNodes value properties reached t := by
  induction properties generalizing reached t with
  | nil => exact fun leaf hleaf => h.contains_reached hleaf
  | cons property rest ih =>
    refine ⟨fun _ p hp => ?_, ?_, ?_⟩
    · have hkept : (t.nodes.get? p).isSome = true := h.contains_reached hp
      rw [OrderedMap.contains, OrderedMap.get?_insert]
      split
      · rfl
      · exact hkept
    · split
      · assumption
      · exact contains_addGroup_self t (ne_some_below reached property (value property))
    · have hvisit := h.visit ⟨property, value property⟩
      have hfacets := facets_below reached property (value property)
      rw [← hfacets, ← stem_some] at hvisit
      exact ih hvisit

/-! ## The arena of a built tree -/

section Build

variable {items : List ItemId} {properties : List String} {lookup : Lookup} {k : GroupPath}

/-- A group is listed below its parent. -/
theorem mem_listed_parent?_build (hk : (build items properties lookup).contains k = true) :
    k ∈ (build items properties lookup).listed k.parent? := by
  rw [← filter_parent?_allGroups_build]
  exact List.mem_filter.2 ⟨mem_allGroups_build.2 hk, decide_eq_true rfl⟩

/-- A tree that has grown to the paths of all items is closed: each group lies on the path of some
item, and the levels above and below it there give its parent, its children or its items. -/
theorem closed_build (items : List ItemId) (properties : List String) (lookup : Lookup) :
    Closed (build items properties lookup) := by
  have hg := grown_build items properties lookup
  refine ⟨fun q k => contains_of_mem_listed_build, fun q k hk => ⟨parent?_of_mem_listed_build hk,
    ((mem_listed_build items properties lookup q k).1 hk).1⟩, fun k n hn => ?_⟩
  have hk : (build items properties lookup).contains k = true := by
    rw [← node?_isSome, hn]
    rfl
  have hchildren : (build items properties lookup).children k = n.children := by
    rw [children_eq, hn]
    rfl
  have hown : (build items properties lookup).ownItems k = n.ownItems := by
    rw [ownItems_eq, hn]
    rfl
  obtain ⟨hpath, hparent⟩ := hg.node k n hn
  have hlevels : (build items properties lookup).levels = properties.length := by
    rw [levels, properties_build]
  refine ⟨hpath, fun p hp => ?_, ?_, fun q hq => ?_, ?_, fun hd => ?_, fun hd => ?_⟩
  · exact hg.contains_parent hk (hparent ▸ hp)
  · rw [hparent]
    exact List.count_eq_one_of_mem (byFirstItem_listed_build items properties lookup _).nodup
      (mem_listed_parent?_build hk)
  · rw [hparent, parent?_of_mem_listed_build hq]
  · exact hlevels ▸ depth_le_of_contains_build hk
  · rw [hlevels] at hd
    rw [← hchildren, ← hown]
    exact ⟨children_build_ne_nil hk hd, ownItems_build_eq_nil (.inl (Nat.ne_of_lt hd))⟩
  · rw [hlevels] at hd
    rw [← hchildren, ← hown]
    exact ⟨children_build_eq_nil (.inl (Nat.le_of_eq hd.symm)), ownItems_build_ne_nil hk hd⟩

/-! ## Walks end -/

/-- Groups of which each is listed below the one before are in the arena, and there are no more of
them than levels from the first on. -/
theorem length_chain_le_build {below : List GroupPath}
    (hk : (build items properties lookup).contains k = true)
    (hchain : (k :: below).IsChain fun j c => c ∈ (build items properties lookup).children j) :
    k.depth + below.length ≤ properties.length ∧
      ∀ c ∈ below, (build items properties lookup).contains c = true := by
  induction below generalizing k with
  | nil => exact ⟨depth_le_of_contains_build hk, fun c hc => absurd hc List.not_mem_nil⟩
  | cons c below ih =>
    obtain ⟨hc, hrest⟩ := List.isChain_cons_cons.1 hchain
    have hcontains := contains_of_mem_listed_build (q := some k) hc
    have hdepth := depth_of_mem_children_build hc
    obtain ⟨hlength, hbelow⟩ := ih hcontains hrest
    refine ⟨?_, List.forall_mem_cons.2 ⟨hcontains, hbelow⟩⟩
    rw [List.length_cons]
    omega

/-- A walk that does the same if the walks from the children do comes to no more when it may go
deeper than the levels reach. -/
theorem walk_build_eq {β : Type} {walk : Nat → GroupPath → List β}
    (hstep : ∀ n k, (∀ c ∈ (build items properties lookup).children k, walk (n + 1) c = walk n c) →
      walk (n + 2) k = walk (n + 1) k)
    (hk : (build items properties lookup).contains k = true) {limit : Nat}
    (hlimit : properties.length ≤ limit) :
    walk limit k = walk (build items properties lookup).levels k := by
  have hsucc : ∀ n k, (build items properties lookup).contains k = true →
      properties.length < n + k.depth → walk (n + 1) k = walk n k := by
    intro n
    induction n with
    | zero =>
      intro k hk hd
      have hle := depth_le_of_contains_build hk
      omega
    | succ n ih =>
      intro k hk hd
      refine hstep n k fun c hc => ih c (contains_of_mem_listed_build (q := some k) hc) ?_
      have hdepth := depth_of_mem_children_build hc
      omega
  have hpos := k.depth_pos
  rw [levels, properties_build]
  induction limit, hlimit using Nat.le_induction with
  | base => rfl
  | succ limit hlimit ih => rw [hsucc limit k hk (by omega), ih]

/-- A walk upward from the deepest group of an item ends at the root, however far it may go. -/
theorem upward_build_eq {id : ItemId} {limit : Nat} (hlimit : properties.length ≤ limit) :
    (build items properties lookup).upward limit ((build items properties lookup).leafOf? id) =
      (build items properties lookup).upward (build items properties lookup).levels
        ((build items properties lookup).leafOf? id) := by
  rw [levels, properties_build]
  cases hleaf : (build items properties lookup).leafOf? id with
  | none => rw [upward_none, upward_none]
  | some leaf =>
    rw [upward_of_leafOf?_build hleaf (Nat.le_refl _), upward_of_leafOf?_build hleaf hlimit]

end Build

/-- After any number of items the arena is closed: every path that is listed, and every parent, is
in it, and each node stands under its own path, is listed once where it belongs and nowhere else,
and holds items if it is deepest and has children if not. While a further item walks down, every
look-up finds a node. Groups of which each is listed below the one before are no more than the
properties, so walks from a group of the tree, and upward from an item, come to no more when they
are allowed more levels than there are properties. -/
theorem arena_is_closed (items : List ItemId) (properties : List String) (lookup : Lookup)
    (count : Nat) :
    let t := (items.take count).foldl (place lookup) (start properties)
    t.levels = properties.length ∧ t.Closed ∧
    (∀ id, FindsNodes (fun property => (lookup id property).getD .absent) properties none t) ∧
    (∀ k below, t.contains k = true → (k :: below).IsChain (fun j c => c ∈ t.children j) →
      k.depth + below.length ≤ properties.length ∧ ∀ c ∈ below, t.contains c = true) ∧
    ∀ limit, properties.length ≤ limit →
      (∀ k, t.contains k = true → t.itemsWithin limit k = t.allItems k ∧
        t.groupsWithin limit k = t.groupsWithin t.levels k ∧
        ∀ e, Snapshot.rowsWithin t e limit k = Snapshot.rowsWithin t e t.levels k) ∧
      ∀ id, t.upward limit (t.leafOf? id) = t.upward t.levels (t.leafOf? id) := by
  intro t
  have ht : t = build (items.take count) properties lookup := rfl
  have henter : Grown (build (items.take count) properties lookup) (_ ++ [stem none]) :=
    (grown_build (items.take count) properties lookup).enter
  rw [ht]
  refine ⟨congrArg List.length (properties_build ..), closed_build _ _ _,
    fun id => henter.findsNodes _ _, fun k below => length_chain_le_build,
    fun limit hlimit => ⟨fun k hk => ⟨?_, ?_, fun e => ?_⟩, fun id => upward_build_eq hlimit⟩⟩
  · refine walk_build_eq (fun n k hbelow => ?_) hk hlimit
    rw [itemsWithin, itemsWithin, List.flatMap_congr hbelow]
  · refine walk_build_eq (fun n k hbelow => ?_) hk hlimit
    rw [groupsWithin, groupsWithin, List.flatMap_congr hbelow]
  · refine walk_build_eq (fun n k hbelow => ?_) hk hlimit
    have hrows := List.flatMap_congr fun c hc => congrArg (Row.group c :: ·) (hbelow c hc)
    rw [Snapshot.rowsWithin, Snapshot.rowsWithin, hrows]

end GroupedRows.GroupTree
