import GroupedRows.Outline.Text
import GroupedRows.Proofs.GroupTree.Preorder

/-!
# The outline lists the groups in the order of the walk

One list of flags serves for the whole outline: a group adds its flag before the groups
below it are written and takes it away afterwards, so each group finds the flags of the
groups above it, just as if they had been handed down to it. They are a matter of the tree
alone: a group's flag says whether it comes last where it is listed. So each group has
lines of its own, and the outline has the lines of all groups one after the other, as the
walk over the tree meets them. A limit on the depth leaves out the lines of the groups
below it and changes no other.
-/

namespace GroupedRows

namespace GroupTree

/-- Whether a group comes last among its siblings: the roots, or the children of its parent. -/
def isLast (t : GroupTree) (k : GroupPath) : Bool := (t.listed k.parent?).getLast? = some k

/-- The flags of the groups above a group, root first. -/
def flagsAbove (t : GroupTree) (k : GroupPath) : List Bool := k.ancestors.reverse.map t.isLast

end GroupTree

namespace Outline

open GroupTree GroupPath

/-- The line of a group, by its place in the tree: lead, whether it is open, its own facet, and how
many items are at any level below. -/
def groupLine (o : Options) (t : GroupTree) (e : Expansion) (k : GroupPath) : String :=
  String.ofList (nodeLead o (t.flagsAbove k) (t.isLast k)) ++
    (if k ∈ e then "[-]" else "[+]") ++ " " ++ (k.property ++ "=" ++ k.value.label) ++
    (if o.showCounts then " (" ++ toString (t.allItems k).length ++ ")" else "") ++ "\n"

/-- The line of an item of a group, by the group's place in the tree. -/
def itemLine (o : Options) (t : GroupTree) (k : GroupPath) (id : ItemId) : String :=
  String.ofList (detailLead o (t.flagsAbove k ++ [t.isLast k])) ++ "." ++ id.inspect ++ "\n"

/-- All that the outline says about a group: its line, then the lines of its own items if they are
shown. -/
def linesOf (o : Options) (t : GroupTree) (e : Expansion) (k : GroupPath) : List String :=
  groupLine o t e k :: if o.showItems then (t.ownItems k).map (itemLine o t k) else []

/-! ## Flags handed down -/

/-- Entries of a group and of the `levels` levels from it on, with the flags of the groups above
handed down to each group. -/
def entriesWithin (o : Options) (t : GroupTree) (e : Expansion) :
    Nat → List Bool → GroupPath × Bool → List String
  | 0, _, _ => []
  | levels + 1, flags, (k, last) =>
    if o.cuts (flags.length + 1) then []
    else
      let inner := flags ++ [last]
      groupEntry o t e flags last k ::
        (if o.showItems then (t.ownItems k).map (itemEntry o inner) else []) ++
        (flagLast (t.children k)).flatMap (entriesWithin o t e levels inner)

namespace Sheet

/-- Writing no entries changes nothing. -/
@[simp] theorem write_nil (s : Sheet) : s.write [] = s := by
  simp [write]

/-- What is written twice is written at once. -/
@[simp] theorem write_write (s : Sheet) (l l' : List String) :
    (s.write l).write l' = s.write (l ++ l') := by
  simp [write]

/-- Writing leaves the flags. -/
@[simp] theorem flags_write (s : Sheet) (l : List String) : (s.write l).flags = s.flags := rfl

/-- A group that is closed takes its own flag with it and leaves what has been written. -/
theorem pop_write_push (s : Sheet) (last : Bool) (l : List String) :
    ((s.push last).write l).pop = s.write l := by
  simp [pop, write, push]

/-- If each addition only writes, and leaves the flags as they were, then so do all together. -/
theorem foldl_eq_write {α : Type} {add : Sheet → α → Sheet} {lines : List Bool → α → List String}
    (h : ∀ s a, add s a = s.write (lines s.flags a)) (l : List α) (s : Sheet) :
    l.foldl add s = s.write (l.flatMap (lines s.flags)) := by
  induction l generalizing s with
  | nil => exact (write_nil s).symm
  | cons a rest ih =>
    rw [List.foldl_cons, h, ih, flags_write, write_write, List.flatMap_cons]

/-- A group adds its entries and those below it with the flags that it finds, and leaves these as it
has found them, wherever the limit on the depth cuts the tree off. -/
theorem addGroup_eq_write (o : Options) (t : GroupTree) (e : Expansion) (levels : Nat) (s : Sheet)
    (g : GroupPath × Bool) :
    s.addGroup o t e levels g = s.write (entriesWithin o t e levels s.flags g) := by
  induction levels generalizing s g with
  | zero => exact (write_nil s).symm
  | succ levels ih =>
    obtain ⟨k, last⟩ := g
    rw [addGroup, entriesWithin]
    split
    · exact (write_nil s).symm
    · dsimp only
      have hlisted : ∀ (entry : String) (items : List String),
          (if o.showItems then ((s.write [entry]).push last).write items
            else (s.write [entry]).push last) =
          (s.push last).write (entry :: if o.showItems then items else []) := by
        intro entry items
        split <;> simp [write, push]
      rw [hlisted, foldl_eq_write ih, write_write, pop_write_push]
      rfl

end Sheet

/-- All entries, with the flags handed down. -/
theorem entries_eq_flatMap (o : Options) (t : GroupTree) (e : Expansion) :
    entries o t e =
      if t.hasGroups then (flagLast t.roots).flatMap (entriesWithin o t e t.levels []) else [] := by
  rw [entries, Sheet.foldl_eq_write (Sheet.addGroup_eq_write o t e t.levels)]
  rfl

/-! ## Flags of the tree -/

/-- Telling the last element apart goes by the element alone in a list without repetitions. -/
theorem flagLast_eq_map {α : Type} [DecidableEq α] {l : List α} (h : l.Nodup) :
    flagLast l = l.map fun a => (a, decide (l.getLast? = some a)) := by
  induction l with
  | nil => rfl
  | cons a rest ih =>
    obtain ⟨ha, hrest⟩ := List.nodup_cons.1 h
    cases rest with
    | nil => simp [flagLast]
    | cons b rest =>
      have hlast : (b :: rest).getLast? ≠ some a := fun e => ha (List.mem_of_getLast? e)
      simp [flagLast, ih hrest, hlast]

/-- A limit that leaves out a level leaves out all levels below. -/
theorem Options.cuts_of_le {o : Options} {d d' : Nat} (hd : d ≤ d') (h : o.cuts d = true) :
    o.cuts d' = true := by
  unfold Options.cuts at h ⊢
  cases hmax : o.maxDepth with
  | none => simp [hmax] at h
  | some max =>
    simp only [hmax, Option.any_some, decide_eq_true_eq] at h ⊢
    omega

/-- A level stays if it keeps to the limit, if there is one. -/
theorem Options.not_cuts (o : Options) (d : Nat) : (!o.cuts d) = o.maxDepth.all (d ≤ ·) := by
  unfold Options.cuts
  cases o.maxDepth with
  | none => rfl
  | some max => simp [← decide_not]

section Build

variable {items : List ItemId} {properties : List String} {lookup : Lookup} {k : GroupPath}

/-- There is one flag for each group above. -/
theorem length_flagsAbove (t : GroupTree) (k : GroupPath) :
    (t.flagsAbove k).length + 1 = k.depth := by
  rw [flagsAbove, List.length_map, List.length_reverse, length_ancestors]

/-- Where groups are listed, each is told from the others by its flag. -/
theorem flagLast_listed_build (q : Option GroupPath) :
    flagLast ((build items properties lookup).listed q) =
      ((build items properties lookup).listed q).map fun c =>
        (c, (build items properties lookup).isLast c) := by
  rw [flagLast_eq_map (byFirstItem_listed_build items properties lookup q).nodup]
  refine List.map_congr_left fun c hc => ?_
  rw [isLast, parent?_of_mem_listed_build hc]

/-- Below a group, its own flag follows those above it. -/
theorem flagsAbove_of_mem_children_build {c : GroupPath}
    (hc : c ∈ (build items properties lookup).children k) :
    (build items properties lookup).flagsAbove c =
      (build items properties lookup).flagsAbove k ++
        [(build items properties lookup).isLast k] := by
  have hparent : c.parent? = some k := parent?_of_mem_listed_build (q := some k) hc
  rw [flagsAbove, ancestors_eq, hparent, List.reverse_cons, List.map_append]
  rfl

/-- Above a root there is nothing. -/
theorem flagsAbove_of_mem_roots_build (hk : k ∈ (build items properties lookup).roots) :
    (build items properties lookup).flagsAbove k = [] := by
  have hparent : k.parent? = none := parent?_of_mem_listed_build (q := none) hk
  rw [flagsAbove, ancestors_eq, hparent]
  rfl

/-- With the flags that belong to its place, the entry of a group is its line. -/
theorem groupEntry_build (o : Options) (e : Expansion) (k : GroupPath) :
    groupEntry o (build items properties lookup) e ((build items properties lookup).flagsAbove k)
        ((build items properties lookup).isLast k) k =
      groupLine o (build items properties lookup) e k := by
  unfold groupEntry groupLine
  rw [itemCount_build]
  simp only [Expansion.contains_iff]
  rfl

/-- The entries of a group are its lines and those of the groups below it, in the order of the walk
and without the groups that are too deep: no group of the walk lies higher than the first. -/
theorem entriesWithin_build (o : Options) (e : Expansion) {levels : Nat} {k : GroupPath} :
    entriesWithin o (build items properties lookup) e levels
        ((build items properties lookup).flagsAbove k)
        (k, (build items properties lookup).isLast k) =
      (((build items properties lookup).groupsWithin levels k).filter (!o.cuts ·.depth)).flatMap
        (linesOf o (build items properties lookup) e) := by
  induction levels generalizing k with
  | zero => rfl
  | succ levels ih =>
    rw [entriesWithin, length_flagsAbove]
    cases hcut : o.cuts k.depth with
    | true =>
      have hnone : ((build items properties lookup).groupsWithin (levels + 1) k).filter
          (!o.cuts ·.depth) = [] := by
        refine List.filter_eq_nil_iff.2 fun j hj => ?_
        have hle : k.depth ≤ j.depth := (prefix_of_mem_groupsWithin_build hj).length_le
        simp [Options.cuts_of_le hle hcut]
      rw [hnone]
      rfl
    | false =>
      have hbelow : ∀ c ∈ (build items properties lookup).children k,
          entriesWithin o (build items properties lookup) e levels
              ((build items properties lookup).flagsAbove k ++
                [(build items properties lookup).isLast k])
              (c, (build items properties lookup).isLast c) =
            (((build items properties lookup).groupsWithin levels c).filter
              (!o.cuts ·.depth)).flatMap (linesOf o (build items properties lookup) e) := by
        intro c hc
        rw [← flagsAbove_of_mem_children_build hc]
        exact ih
      have hchildren : flagLast ((build items properties lookup).children k) =
          ((build items properties lookup).children k).map fun c =>
            (c, (build items properties lookup).isLast c) := flagLast_listed_build (some k)
      rw [if_neg Bool.false_ne_true]
      dsimp only
      rw [hchildren, List.flatMap_map, List.flatMap_congr hbelow, groupEntry_build, groupsWithin,
        List.filter_cons_of_pos (by simp [hcut]), List.flatMap_cons, List.filter_flatMap,
        List.flatMap_assoc]
      rfl

/-- The entries are the lines of all groups that are not too deep, in the order of the walk. -/
theorem entries_build (o : Options) (e : Expansion) :
    entries o (build items properties lookup) e =
      ((build items properties lookup).allGroups.filter
        fun k => o.maxDepth.all (k.depth ≤ ·)).flatMap
        (linesOf o (build items properties lookup) e) := by
  have hroots : flagLast (build items properties lookup).roots =
      (build items properties lookup).roots.map fun c =>
        (c, (build items properties lookup).isLast c) := flagLast_listed_build none
  simp only [← Options.not_cuts]
  rw [entries_eq_flatMap]
  split
  · rw [hroots, List.flatMap_map, allGroups, List.filter_flatMap, List.flatMap_assoc]
    refine List.flatMap_congr fun r hr => ?_
    rw [← flagsAbove_of_mem_roots_build hr]
    exact entriesWithin_build o e
  · rename_i hgroups
    have hproperties : properties = [] := by simpa [hasGroups] using hgroups
    have hnone : (build items properties lookup).allGroups = [] := by
      refine List.eq_nil_iff_forall_not_mem.2 fun k hk => Bool.false_ne_true ?_
      rw [← mem_allGroups_build.1 hk, hproperties, contains_build_nil]
    rw [hnone]
    rfl

/-- With some properties the header tells how many groups the walk meets and how many items there
are. -/
theorem header_build (h : properties ≠ []) :
    header (build items properties lookup) =
      "Group Tree (" ++ toString (build items properties lookup).allGroups.length ++
        " groups, " ++ toString items.length ++ " items) by " ++ ", ".intercalate properties ++
        ":\n" := by
  have hgroups : (build items properties lookup).hasGroups = true := by simpa [hasGroups] using h
  rw [header, if_pos hgroups, items_build, properties_build,
    length_eq_groupCount_build nodup_allGroups_build fun _ => mem_allGroups_build]

end Build

/-- The outline of a built tree is the header, and then the lines of each group that the limit on
the depth allows, in the order of the walk over all groups. The lines of a group depend on its place
alone: a flag says whether a group comes last among those with the same parent. So without a limit
the entries are the lines of all groups, and a limit takes away exactly those of deeper groups. -/
theorem text_lists_groups_in_order (items : List ItemId) (properties : List String)
    (lookup : Lookup) (o : Options) (e : Expansion) :
    let t := build items properties lookup
    text o t e = String.join (header t ::
      (t.allGroups.filter fun k => o.maxDepth.all (k.depth ≤ ·)).flatMap (linesOf o t e)) ∧
    (properties ≠ [] → header t = "Group Tree (" ++ toString t.allGroups.length ++ " groups, " ++
      toString items.length ++ " items) by " ++ ", ".intercalate properties ++ ":\n") ∧
    (∀ k, t.isLast k = true ↔
      (t.allGroups.filter (·.parent? = k.parent?)).getLast? = some k) ∧
    entries { o with maxDepth := none } t e = t.allGroups.flatMap (linesOf o t e) ∧
    ∀ d, entries { o with maxDepth := some d } t e =
      (t.allGroups.filter (·.depth ≤ d)).flatMap (linesOf o t e) := by
  intro t
  have hentries : ∀ o, entries o t e =
      (t.allGroups.filter fun k => o.maxDepth.all (k.depth ≤ ·)).flatMap (linesOf o t e) :=
    fun o => entries_build o e
  refine ⟨?_, header_build, fun k => ?_, ?_, fun d => hentries { o with maxDepth := some d }⟩
  · rw [text, hentries]
  · rw [filter_parent?_allGroups_build, isLast, decide_eq_true_eq]
  · have hall : t.allGroups.filter (fun k => (none : Option Nat).all (k.depth ≤ ·)) = t.allGroups :=
      List.filter_eq_self.2 fun _ _ => rfl
    exact (hentries { o with maxDepth := none }).trans (congrArg (·.flatMap (linesOf o t e)) hall)

end Outline

end GroupedRows
