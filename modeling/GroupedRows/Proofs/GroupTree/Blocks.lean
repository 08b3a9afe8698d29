import GroupedRows.Proofs.GroupTree.SharedLevels
import GroupedRows.Proofs.VisibleRows

/-!
# The rows inside a group

Among all rows of a tree, those inside a group stand together, right behind its header.
So to open or close one group takes one block of rows in or out, and the rows of groups
inside that were open come back as they were.
-/

namespace GroupedRows

open GroupPath

/-- Whether a row stands inside a group that has these items: the header of a group further down,
or one of the items. -/
def Row.isInside (k : GroupPath) (ids : List ItemId) : Row → Bool
  | .group j => k.isAncestorOf j
  | .item id => decide (id ∈ ids)

namespace GroupTree

/-- Among these rows the header of a group stands right before the rows inside the group, and no
other row is inside it. -/
def BlockIn (t : GroupTree) (k : GroupPath) (inside rows : List Row) : Prop :=
  ∃ before after, rows = before ++ .group k :: (inside ++ after) ∧
    ∀ r ∈ before ++ after, k ∉ r.enclosing t

namespace BlockIn

variable {t : GroupTree} {k : GroupPath} {inside rows more : List Row}

/-- A group and what is inside it are a block. -/
theorem self (t : GroupTree) (k : GroupPath) (inside : List Row) :
    t.BlockIn k inside (.group k :: inside) :=
  ⟨[], [], by simp, fun _ hr => absurd hr List.not_mem_nil⟩

/-- Rows outside the group may come before. -/
theorem append_left (more : List Row) (h : t.BlockIn k inside rows)
    (hmore : ∀ r ∈ more, k ∉ r.enclosing t) :
    t.BlockIn k inside (more ++ rows) := by
  obtain ⟨before, after, rfl, hrest⟩ := h
  refine ⟨more ++ before, after, (List.append_assoc ..).symm, fun r hr => ?_⟩
  rw [List.append_assoc, List.mem_append] at hr
  exact hr.elim (hmore r) (hrest r)

/-- Rows outside the group may come after. -/
theorem append_right (h : t.BlockIn k inside rows) (hmore : ∀ r ∈ more, k ∉ r.enclosing t) :
    t.BlockIn k inside (rows ++ more) := by
  obtain ⟨before, after, rfl, hrest⟩ := h
  refine ⟨before, after ++ more, by simp, fun r hr => ?_⟩
  rw [← List.append_assoc, List.mem_append] at hr
  exact hr.elim (hrest r) (hmore r)

/-- A test for the rows that the group is around finds the rows inside it. -/
theorem filter_eq (h : t.BlockIn k inside rows) (hinside : ∀ r ∈ inside, k ∈ r.enclosing t)
    {p : Row → Bool} (hp : ∀ r ∈ rows, p r = true ↔ k ∈ r.enclosing t) :
    rows.filter p = inside := by
  obtain ⟨before, after, rfl, hrest⟩ := h
  have hheader : k ∉ (Row.group k).enclosing t := fun hk =>
    not_isAncestorOf_self k (mem_ancestors_iff.1 hk)
  have hbefore : before.filter p = [] := List.filter_eq_nil_iff.2 fun r hr hpr =>
    hrest r (List.mem_append_left _ hr) ((hp r (by simp [hr])).1 hpr)
  have hafter : after.filter p = [] := List.filter_eq_nil_iff.2 fun r hr hpr =>
    hrest r (List.mem_append_right _ hr) ((hp r (by simp [hr])).1 hpr)
  have hself : inside.filter p = inside := List.filter_eq_self.2 fun r hr =>
    (hp r (by simp [hr])).2 (hinside r hr)
  have hgroup : ¬p (.group k) = true := fun hpk => hheader ((hp _ (by simp)).1 hpk)
  rw [List.filter_append, List.filter_cons_of_neg hgroup, List.filter_append, hbefore, hafter,
    hself, List.nil_append, List.append_nil]

end BlockIn

variable {items : List ItemId} {properties : List String} {lookup : Lookup} {k : GroupPath}

/-! ## Finding the block -/

/-- All that is around a row of a group's block begins a path that the group begins. -/
theorem exists_path_of_mem_block_build {below : Nat} {c : GroupPath} {r : Row}
    (hr : r ∈ Row.group c :: (build items properties lookup).rowsInside below c) :
    ∃ path, c.facets <+: path ∧
      ∀ j ∈ r.enclosing (build items properties lookup), j.facets <+: path := by
  induction below generalizing c with
  | zero =>
    refine ⟨c.facets, List.prefix_rfl, fun j hj => ?_⟩
    rcases List.mem_cons.1 hr with rfl | hr
    · exact (isAncestorOf_iff.1 (mem_ancestors_iff.1 hj)).2
    · obtain ⟨id, hid, rfl⟩ := List.mem_map.1 hr
      exact (mem_pathOf_of_ownItems_build hid).1 hj
  | succ below ih =>
    rcases List.mem_cons.1 hr with rfl | hr
    · exact ⟨c.facets, List.prefix_rfl, fun j hj =>
        (isAncestorOf_iff.1 (mem_ancestors_iff.1 hj)).2⟩
    · obtain ⟨d, hd, hr⟩ := List.mem_flatMap.1 hr
      obtain ⟨path, hpath, haround⟩ := ih hr
      have hcd := ((mem_listed_build items properties lookup (some c) d).1 hd).2.1
      exact ⟨path, hcd.trans hpath, haround⟩

/-- A group is around no row of a block that belongs to another group beside its path. -/
theorem not_mem_enclosing_of_mem_block_build {below : Nat} {c d : GroupPath} {r : Row}
    (hr : r ∈ Row.group d :: (build items properties lookup).rowsInside below d)
    (hc : c.facets <+: k.facets) (hdepth : d.depth = c.depth) (hne : d ≠ c) :
    k ∉ r.enclosing (build items properties lookup) := by
  intro hk
  obtain ⟨path, hd, haround⟩ := exists_path_of_mem_block_build hr
  have hcpath := hc.trans (haround k hk)
  have hdc := List.prefix_of_prefix_length_le hd hcpath (Nat.le_of_eq hdepth)
  exact hne (ext (hdc.eq_of_length hdepth))

/-- On the way down to a group, one of the paths listed below a path leads on, and no row of the
blocks of the others is inside the group. -/
theorem exists_listed_towards_build {q : Option GroupPath}
    (hk : (build items properties lookup).contains k = true) (hq : stem q <+: k.facets)
    (hd : (stem q).length < k.depth) :
    ∃ c, c.facets <+: k.facets ∧ c.depth = (stem q).length + 1 ∧ ∀ below inside,
      (build items properties lookup).BlockIn k inside
        (.group c :: (build items properties lookup).rowsInside below c) →
      (build items properties lookup).BlockIn k inside
        (((build items properties lookup).listed q).flatMap fun c =>
          .group c :: (build items properties lookup).rowsInside below c) := by
  obtain ⟨i, hi, hkfacets⟩ := contains_build_iff.1 hk
  obtain ⟨c, hc⟩ := exists_nextOn_eq hq hd
  obtain ⟨hck, hqc, hcd⟩ := nextOn_eq_some_iff.1 hc
  refine ⟨c, hck, hcd, fun below inside hblock => ?_⟩
  have hc : c ∈ (build items properties lookup).listed q :=
    (mem_listed_build items properties lookup q c).2 ⟨hcd, hqc, i, hi, hck.trans hkfacets⟩
  obtain ⟨l₁, l₂, hl⟩ := List.append_of_mem hc
  have hnodup := (byFirstItem_listed_build items properties lookup q).nodup
  rw [hl, List.nodup_middle, List.nodup_cons] at hnodup
  have hothers : ∀ l : List GroupPath, (∀ d ∈ l, d ∈ l₁ ++ l₂) →
      ∀ r ∈ l.flatMap fun d => Row.group d :: (build items properties lookup).rowsInside below d,
        k ∉ r.enclosing (build items properties lookup) := by
    intro l hsub r hr
    obtain ⟨d, hd, hr⟩ := List.mem_flatMap.1 hr
    have hlisted : d ∈ (build items properties lookup).listed q := by
      rw [hl]
      exact List.perm_middle.mem_iff.2 (List.mem_cons_of_mem _ (hsub d hd))
    have hdd := ((mem_listed_build items properties lookup q d).1 hlisted).1
    refine not_mem_enclosing_of_mem_block_build hr hck (hdd.trans hcd.symm) ?_
    rintro rfl
    exact hnodup.1 (hsub d hd)
  rw [hl, List.flatMap_append, List.flatMap_cons]
  refine (hblock.append_right (hothers l₂ fun d hd => ?_)).append_left _ (hothers l₁ fun d hd => ?_)
  · exact List.mem_append_right _ hd
  · exact List.mem_append_left _ hd

/-- The rows below a path hold the block of every group further down: level by level, the group is
the listed one that lies towards it, or is below this one. -/
theorem blockIn_listed_build {below : Nat} {q : Option GroupPath}
    (hk : (build items properties lookup).contains k = true) (hq : stem q <+: k.facets)
    (hd : (stem q).length < k.depth) (hbelow : (stem q).length + below + 1 = properties.length) :
    (build items properties lookup).BlockIn k
      ((build items properties lookup).rowsInside (properties.length - k.depth) k)
      (((build items properties lookup).listed q).flatMap fun c =>
        .group c :: (build items properties lookup).rowsInside below c) := by
  have hle := depth_le_of_contains_build hk
  induction below generalizing q with
  | zero =>
    obtain ⟨c, hck, hcd, hlift⟩ := exists_listed_towards_build hk hq hd
    obtain rfl : c = k := ext (hck.eq_of_length (by unfold depth at *; omega))
    refine hlift 0 _ ?_
    rw [show properties.length - c.depth = 0 by omega]
    exact .self _ c _
  | succ below ih =>
    obtain ⟨c, hck, hcd, hlift⟩ := exists_listed_towards_build hk hq hd
    refine hlift (below + 1) _ ?_
    by_cases hdepth : c.depth = k.depth
    · obtain rfl : c = k := ext (hck.eq_of_length hdepth)
      rw [show properties.length - c.depth = below + 1 by omega]
      exact .self _ c _
    · have hlt : c.depth < k.depth := Nat.lt_of_le_of_ne hck.length_le hdepth
      have hlevels : (stem (some c)).length + below + 1 = properties.length := by
        change c.depth + below + 1 = properties.length
        omega
      refine (ih (q := some c) hck hlt hlevels).append_left [.group c] fun r hr => ?_
      rw [List.mem_singleton.1 hr]
      intro hkc
      have := (isAncestorOf_iff.1 (mem_ancestors_iff.1 hkc)).1
      omega

/-- Among all rows of a tree the rows inside a group stand right behind its header. -/
theorem blockIn_allRows_build (hk : (build items properties lookup).contains k = true) :
    (build items properties lookup).BlockIn k
      ((build items properties lookup).rowsInside (properties.length - k.depth) k)
      (build items properties lookup).allRows := by
  have hle := depth_le_of_contains_build hk
  have hpos := k.depth_pos
  unfold allRows
  rw [levels, properties_build]
  refine blockIn_listed_build (q := none) hk List.nil_prefix hpos ?_
  rw [stem_none, List.length_nil]
  omega

/-! ## Opening and closing the block -/

/-- Without properties there is no group. -/
theorem properties_ne_nil_of_contains_build
    (hk : (build items properties lookup).contains k = true) : properties ≠ [] := by
  rintro rfl
  rw [contains_build_nil] at hk
  exact Bool.false_ne_true hk

/-- The rows inside a group are those that it is around. -/
theorem isInside_iff_mem_enclosing_build {r : Row}
    (hr : r ∈ (build items properties lookup).allRows) :
    r.isInside k ((build items properties lookup).allItems k) = true ↔
      k ∈ r.enclosing (build items properties lookup) := by
  cases r with
  | group j => exact mem_ancestors_iff.symm
  | item id =>
    obtain ⟨c, hc, _⟩ := List.mem_flatMap.1 hr
    have hproperties := properties_ne_nil_of_contains_build
      (contains_of_mem_listed_build (q := none) hc)
    have hid : id ∈ items := (filterMap_item?_allRows_build_perm hproperties).mem_iff.1
      (List.mem_filterMap.2 ⟨_, hr, rfl⟩)
    rw [Row.isInside, decide_eq_true_eq, (allItems_build_perm k).mem_iff, List.mem_filter,
      List.isPrefixOf_iff_prefix, and_iff_right hid]
    exact (mem_pathOf_build hid).symm

/-- The rows that a group is around are those that follow its header. -/
theorem filter_isInside_allRows_build (hk : (build items properties lookup).contains k = true) :
    (build items properties lookup).allRows.filter
        (Row.isInside k ((build items properties lookup).allItems k)) =
      (build items properties lookup).rowsInside (properties.length - k.depth) k :=
  (blockIn_allRows_build hk).filter_eq
    (fun _ hr => mem_enclosing_of_mem_rowsInside_build hr List.prefix_rfl)
    fun _ hr => isInside_iff_mem_enclosing_build hr

/-- Something is visible inside an open group if all groups above it are open. -/
theorem exists_isShown_rowsInside_build {below : Nat} {e : Expansion}
    (hk : (build items properties lookup).contains k = true)
    (hd : k.depth + below = properties.length) (he : ∀ j, j.facets <+: k.facets → j ∈ e) :
    ∃ r ∈ (build items properties lookup).rowsInside below k,
      r.isShown (build items properties lookup) e = true := by
  cases below with
  | zero =>
    obtain ⟨i, hown⟩ := List.exists_mem_of_ne_nil _ (ownItems_build_ne_nil hk hd)
    refine ⟨.item i, List.mem_map_of_mem hown, List.all_eq_true.2 fun j hj => ?_⟩
    exact Expansion.contains_iff.2 (he j ((mem_pathOf_of_ownItems_build hown).1 hj))
  | succ below =>
    obtain ⟨c, hc⟩ := List.exists_mem_of_ne_nil _ (children_build_ne_nil hk (by omega))
    have hchild : c ∈ (build items properties lookup).listed (some k) := hc
    refine ⟨.group c, List.mem_flatMap.2 ⟨c, hchild, List.mem_cons_self⟩,
      List.all_eq_true.2 fun j hj => ?_⟩
    exact Expansion.contains_iff.2 (he j ((mem_ancestors_of_listed_build hchild).1 hj))

section Toggle

variable {e e' : Expansion}

/-- A row that is not inside a group is visible as before when the group is closed. -/
theorem isShown_eq_of_not_mem_enclosing {t : GroupTree} (hclosed : ∀ j, j ∈ e' ↔ j ≠ k ∧ j ∈ e)
    {r : Row} (hr : k ∉ r.enclosing t) : r.isShown t e' = r.isShown t e := by
  rw [Bool.eq_iff_iff, Row.isShown, Row.isShown, List.all_eq_true, List.all_eq_true]
  refine forall₂_congr fun j hj => ?_
  rw [Expansion.contains_iff, Expansion.contains_iff, hclosed, and_iff_right]
  rintro rfl
  exact hr hj

/-- A row is hidden if one of the groups around it is closed. -/
theorem isShown_eq_false {t : GroupTree} {j : GroupPath} {r : Row} (hj : j ∈ r.enclosing t)
    (hje : j ∉ e) : r.isShown t e = false := by
  rw [Bool.eq_false_iff]
  intro h
  exact hje (Expansion.contains_iff.1 (List.all_eq_true.1 h j hj))

/-- If all groups above it are open, an open group shows one block of rows more behind its header
than when it is closed: all the visible rows inside it, of which there is one at least. Of the rows
that the block is taken from it counts only that they are inside the group. -/
theorem visibleRows_toggle_build (hk : (build items properties lookup).contains k = true)
    (hopen : k ∈ e) (hclosed : ∀ j, j ∈ e' ↔ j ≠ k ∧ j ∈ e)
    (habove : ∀ j, j.isAncestorOf k = true → j ∈ e) :
    ∃ before block after,
      Snapshot.visibleRows (build items properties lookup) e =
        before ++ .group k :: (block ++ after) ∧
      Snapshot.visibleRows (build items properties lookup) e' = before ++ .group k :: after ∧
      block ≠ [] ∧
      block = (Snapshot.visibleRows (build items properties lookup) e).filter
        (Row.isInside k ((build items properties lookup).allItems k)) := by
  have hproperties := properties_ne_nil_of_contains_build hk
  have hblock : ∀ r ∈ (build items properties lookup).rowsInside (properties.length - k.depth) k,
      k ∈ r.enclosing (build items properties lookup) := fun r hr =>
    mem_enclosing_of_mem_rowsInside_build hr List.prefix_rfl
  have hfilter := filter_isInside_allRows_build hk
  have hbegin : ∀ j, j.facets <+: k.facets → j ∈ e := by
    intro j hj
    rcases eq_or_isAncestorOf_iff.2 hj with rfl | hj
    · exact hopen
    · exact habove j hj
  have hdepth := Nat.add_sub_cancel' (depth_le_of_contains_build hk)
  obtain ⟨r, hr, hrshown⟩ := exists_isShown_rowsInside_build hk hdepth hbegin
  obtain ⟨before, after, hall, hrest⟩ := blockIn_allRows_build hk
  generalize (build items properties lookup).rowsInside (properties.length - k.depth) k = inside
    at hblock hfilter hr hall
  have hhidden : inside.filter (Row.isShown (build items properties lookup) e') = [] :=
    List.filter_eq_nil_iff.2 fun r hr h => Bool.false_ne_true <|
      (isShown_eq_false (hblock r hr) fun hke => ((hclosed k).1 hke).1 rfl).symm.trans h
  have hsame : ∀ l : List Row, (∀ r ∈ l, k ∉ r.enclosing (build items properties lookup)) →
      l.filter (Row.isShown (build items properties lookup) e') =
        l.filter (Row.isShown (build items properties lookup) e) := fun l hl =>
    List.filter_congr fun r hr => isShown_eq_of_not_mem_enclosing hclosed (hl r hr)
  have hheader : ∀ e : Expansion, (∀ j, j.isAncestorOf k = true → j ∈ e) →
      (Row.group k).isShown (build items properties lookup) e = true := fun e he =>
    List.all_eq_true.2 fun j hj => Expansion.contains_iff.2 (he j (mem_ancestors_iff.1 hj))
  have habove' : ∀ j, j.isAncestorOf k = true → j ∈ e' := by
    intro j hj
    refine (hclosed j).2 ⟨?_, habove j hj⟩
    rintro rfl
    exact not_isAncestorOf_self j hj
  refine ⟨before.filter (Row.isShown (build items properties lookup) e),
    inside.filter (Row.isShown (build items properties lookup) e),
    after.filter (Row.isShown (build items properties lookup) e), ?_, ?_,
    List.ne_nil_of_mem (List.mem_filter.2 ⟨hr, hrshown⟩), ?_⟩
  · rw [visibleRows_build hproperties, hall, List.filter_append,
      List.filter_cons_of_pos (hheader e habove), List.filter_append]
  · rw [visibleRows_build hproperties, hall, List.filter_append,
      List.filter_cons_of_pos (hheader e' habove'), List.filter_append, hhidden, List.nil_append,
      hsame before fun r hr => hrest r (List.mem_append_left _ hr),
      hsame after fun r hr => hrest r (List.mem_append_right _ hr)]
  · rw [visibleRows_build hproperties, List.filter_comm, hfilter]

/-- Below a closed group, opening and closing changes nothing that is visible. -/
theorem visibleRows_toggle_build_of_closed
    (hk : (build items properties lookup).contains k = true)
    (hclosed : ∀ j, j ∈ e' ↔ j ≠ k ∧ j ∈ e) {j : GroupPath} (hj : j.isAncestorOf k = true)
    (hje : j ∉ e) :
    Snapshot.visibleRows (build items properties lookup) e' =
      Snapshot.visibleRows (build items properties lookup) e := by
  have hproperties := properties_ne_nil_of_contains_build hk
  rw [visibleRows_build hproperties, visibleRows_build hproperties]
  refine List.filter_congr fun r hr => ?_
  by_cases hkr : k ∈ r.enclosing (build items properties lookup)
  · have hinside := List.mem_filter.2 ⟨hr, (isInside_iff_mem_enclosing_build hr).2 hkr⟩
    rw [filter_isInside_allRows_build hk] at hinside
    have hjr := mem_enclosing_of_mem_rowsInside_build hinside (isAncestorOf_iff.1 hj).2
    rw [isShown_eq_false hjr hje, isShown_eq_false hjr fun h => hje ((hclosed j).1 h).2]
  · exact isShown_eq_of_not_mem_enclosing hclosed hkr

end Toggle

end GroupTree

end GroupedRows
