import Mathlib.Data.Fintype.Basic
import GroupedRows.Outline.Text

/-!
# Leads tell where a line belongs

Leads of one level are equally wide, since a blank branch is as wide as a drawn one. Where
branches are drawn, a lead can be read from the front, level by level: the first character
of a level tells whether the branch goes on, and a character of which no branch is made
ends the levels. So every line of an outline tells all flags of its path.
-/

namespace GroupedRows.Outline

namespace Style

variable {s : Style}

/-- The character is part of branches, drawn or blank. -/
def InBranch (s : Style) (c : Char) : Prop := c = ' ' ∨ c ∈ s.branch

/-- Where branches are drawn, each level begins with one character that tells its flag. -/
theorem exists_beside_eq (h : s ≠ .compact) : ∃ mark : Bool → Char, Function.Injective mark ∧
    ∀ last, s.beside last = [mark last] ∧ s.InBranch (mark last) := by
  cases s with
  | ascii =>
    refine ⟨fun last => if last then ' ' else '|', by decide, fun last => ?_⟩
    cases last <;> simp [beside, branch, InBranch]
  | unicode =>
    refine ⟨fun last => if last then ' ' else '│', by decide, fun last => ?_⟩
    cases last <;> simp [beside, branch, InBranch]
  | compact => exact absurd rfl h

/-- Where branches are drawn, corners begin with a character that is in no branch and tells the
flag, and go on alike. -/
theorem exists_corner_eq (h : s ≠ .compact) : ∃ (mark : Bool → Char) (line : List Char),
    Function.Injective mark ∧
      ∀ last, s.corner last = mark last :: line ∧ ¬s.InBranch (mark last) ∧ mark last ≠ '.' := by
  cases s with
  | ascii =>
    refine ⟨fun last => if last then '\x60' else '+', ['-', '-'], by decide, fun last => ?_⟩
    cases last <;> simp [corner, branch, InBranch]
  | unicode =>
    refine ⟨fun last => if last then '└' else '├', ['─', '─'], by decide, fun last => ?_⟩
    cases last <;> simp [corner, branch, InBranch]
  | compact => exact absurd rfl h

/-- No branch is made of the dot in front of an item. -/
theorem not_inBranch_dot (s : Style) : ¬s.InBranch '.' := by
  cases s <;> simp [InBranch, branch]

end Style

variable {o : Options}

/-- The lead of a group is as wide as its number of levels says. -/
theorem length_nodeLead (o : Options) (flags : List Bool) (last : Bool) :
    (nodeLead o flags last).length =
      flags.length * (o.style.branch.length + o.indent) + (o.style.corner false).length + 1 := by
  rw [nodeLead, List.length_append, List.length_append, length_detailLead, Style.length_corner]
  rfl

/-- The levels of a lead can be read from its front: they end where a character follows of which no
branch is made. -/
theorem detailLead_append_inj (h : o.style ≠ .compact) {flags flags' : List Bool} {c c' : Char}
    {rest rest' : List Char} (hc : ¬o.style.InBranch c) (hc' : ¬o.style.InBranch c')
    (heq : detailLead o flags ++ c :: rest = detailLead o flags' ++ c' :: rest') :
    flags = flags' ∧ c = c' ∧ rest = rest' := by
  obtain ⟨mark, hmark, hbeside⟩ := Style.exists_beside_eq h
  have hlead : ∀ last flags, detailLead o (last :: flags) =
      mark last :: (List.replicate o.indent ' ' ++ detailLead o flags) := by
    intro last flags
    rw [detailLead_cons, (hbeside last).1]
    rfl
  induction flags generalizing flags' with
  | nil =>
    cases flags' with
    | nil => exact ⟨rfl, List.cons.inj heq⟩
    | cons last' flags' =>
      rw [hlead] at heq
      exact absurd ((List.cons.inj heq).1 ▸ (hbeside last').2) hc
  | cons last flags ih =>
    cases flags' with
    | nil =>
      rw [hlead] at heq
      exact absurd ((List.cons.inj heq).1 ▸ (hbeside last).2) hc'
    | cons last' flags' =>
      rw [hlead, hlead, List.cons_append, List.cons_append, List.append_assoc,
        List.append_assoc] at heq
      obtain ⟨hlast, hbehind⟩ := List.cons.inj heq
      obtain ⟨rfl, hrest⟩ := ih (List.append_cancel_left hbehind)
      exact ⟨congrArg (· :: flags) (hmark hlast), hrest⟩

/-- Where branches are drawn, the levels of a group's lead end with the character that tells the
group's own flag. -/
theorem exists_nodeLead_eq (h : o.style ≠ .compact) : ∃ (mark : Bool → Char) (line : List Char),
    Function.Injective mark ∧ (∀ last, ¬o.style.InBranch (mark last) ∧ mark last ≠ '.') ∧
      ∀ flags last rest, nodeLead o flags last ++ rest =
        detailLead o flags ++ mark last :: (line ++ ' ' :: rest) := by
  obtain ⟨mark, line, hmark, hcorner⟩ := Style.exists_corner_eq h
  refine ⟨mark, line, hmark, fun last => (hcorner last).2, fun flags last rest => ?_⟩
  simp only [nodeLead, (hcorner last).1, List.append_assoc, List.cons_append, List.nil_append]

/-- The lead of a group can be told from whatever follows it. -/
theorem nodeLead_append_inj (h : o.style ≠ .compact) {flags flags' : List Bool} {last last' : Bool}
    {rest rest' : List Char}
    (heq : nodeLead o flags last ++ rest = nodeLead o flags' last' ++ rest') :
    flags = flags' ∧ last = last' ∧ rest = rest' := by
  obtain ⟨mark, line, hmark, hout, hlead⟩ := exists_nodeLead_eq h
  rw [hlead, hlead] at heq
  obtain ⟨hflags, hlast, hrest⟩ := detailLead_append_inj h (hout last).1 (hout last').1 heq
  exact ⟨hflags, hmark hlast, (List.cons.inj (List.append_cancel_left hrest)).2⟩

/-! ## Lines -/

variable {t t' : GroupTree} {e e' : Expansion} {flags flags' : List Bool} {last last' : Bool}
  {k k' : GroupPath} {id id' : ItemId}

/-- The line of a group begins with its lead. -/
theorem exists_toList_groupEntry (o : Options) (t : GroupTree) (e : Expansion) (flags : List Bool)
    (last : Bool) (k : GroupPath) :
    ∃ rest, (groupEntry o t e flags last k).toList = nodeLead o flags last ++ rest := by
  unfold groupEntry
  simp only [String.toList_append, String.toList_ofList, List.append_assoc]
  exact ⟨_, rfl⟩

/-- The line of an item has a dot behind its lead. -/
theorem exists_toList_itemEntry (o : Options) (flags : List Bool) (id : ItemId) :
    ∃ rest, (itemEntry o flags id).toList = detailLead o flags ++ '.' :: rest := by
  unfold itemEntry
  simp only [String.toList_append, String.toList_ofList, List.append_assoc]
  exact ⟨_, rfl⟩

/-- Where branches are drawn, the entries of two groups agree only if their flags do. -/
theorem groupEntry_inj (h : o.style ≠ .compact)
    (heq : groupEntry o t e flags last k = groupEntry o t' e' flags' last' k') :
    flags = flags' ∧ last = last' := by
  obtain ⟨rest, hrest⟩ := exists_toList_groupEntry o t e flags last k
  obtain ⟨rest', hrest'⟩ := exists_toList_groupEntry o t' e' flags' last' k'
  rw [heq, hrest'] at hrest
  obtain ⟨hflags, hlast, -⟩ := nodeLead_append_inj h hrest
  exact ⟨hflags.symm, hlast.symm⟩

/-- Where branches are drawn, the entries of two items agree only if their flags do. -/
theorem itemEntry_inj (h : o.style ≠ .compact)
    (heq : itemEntry o flags id = itemEntry o flags' id') : flags = flags' := by
  obtain ⟨rest, hrest⟩ := exists_toList_itemEntry o flags id
  obtain ⟨rest', hrest'⟩ := exists_toList_itemEntry o flags' id'
  rw [heq, hrest'] at hrest
  exact (detailLead_append_inj h (Style.not_inBranch_dot _) (Style.not_inBranch_dot _) hrest).1.symm

/-- A group's line shows a corner where an item's line shows a dot. -/
theorem groupEntry_ne_itemEntry (h : o.style ≠ .compact) :
    groupEntry o t e flags last k ≠ itemEntry o flags' id := by
  intro heq
  obtain ⟨mark, line, -, hout, hlead⟩ := exists_nodeLead_eq h
  obtain ⟨rest, hrest⟩ := exists_toList_groupEntry o t e flags last k
  obtain ⟨rest', hrest'⟩ := exists_toList_itemEntry o flags' id
  rw [heq, hrest', hlead] at hrest
  obtain ⟨-, hdot, -⟩ := detailLead_append_inj h (Style.not_inBranch_dot _) (hout last).1 hrest
  exact (hout last).2 hdot.symm

/-- The width of a lead depends only on the number of levels, whatever the flags are. Where branches
are drawn, even without blanks behind them, a lead determines all its flags, and so does the whole
line: that of a group the flags above it and its own, that of an item the flags down to its group,
and no line can be taken for one of the other kind. -/
theorem leads_are_aligned_and_unambiguous (o : Options) :
    (∀ flags, (detailLead o flags).length =
      flags.length * (o.style.branch.length + o.indent)) ∧
    (∀ flags last, (nodeLead o flags last).length =
      flags.length * (o.style.branch.length + o.indent) + (o.style.corner false).length + 1) ∧
    (o.style ≠ .compact →
      Function.Injective (detailLead o) ∧ Function.Injective2 (nodeLead o) ∧
      ∀ t e flags last k t' e' flags' last' k' id id',
        (groupEntry o t e flags last k = groupEntry o t' e' flags' last' k' →
          flags = flags' ∧ last = last') ∧
        (itemEntry o flags id = itemEntry o flags' id' → flags = flags') ∧
        groupEntry o t e flags last k ≠ itemEntry o flags' id') := by
  refine ⟨length_detailLead o, length_nodeLead o, fun h => ⟨fun flags flags' heq => ?_,
    fun flags flags' last last' heq => ?_, fun t e flags last k t' e' flags' last' k' id id' =>
      ⟨groupEntry_inj h, itemEntry_inj h, groupEntry_ne_itemEntry h⟩⟩⟩
  · have hdot := Style.not_inBranch_dot o.style
    exact (detailLead_append_inj h hdot hdot (congrArg (· ++ ['.']) heq)).1
  · obtain ⟨hflags, hlast, -⟩ := nodeLead_append_inj h (congrArg (· ++ []) heq)
    exact ⟨hflags, hlast⟩

end GroupedRows.Outline
