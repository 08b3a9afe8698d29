/-!
# Leads of outline lines

The lead of a line draws the branches of the groups around it. For each level there is
a flag that says whether the group of that level is the last of its siblings: behind a
last group the branch is blank. All leads of one level are equally wide.
-/

namespace GroupedRows.Outline

/-- Which characters draw the branches. -/
inductive Style where
  | ascii
  | unicode
  | compact
  deriving DecidableEq, Repr

/-- How an outline is written. -/
structure Options where
  style : Style
  /-- Show the number of items of each group. -/
  showCounts : Bool
  /-- List the items of the deepest groups. -/
  showItems : Bool
  /-- Leave out groups below this level. -/
  maxDepth : Option Nat
  /-- Blanks behind each branch. -/
  indent : Nat
  deriving DecidableEq, Repr

namespace Options

/-- Box characters and counts. -/
def default : Options := ⟨.unicode, true, false, none, 2⟩

/-- The default with items. -/
def detailed : Options := { default with showItems := true }

/-- The default without counts. -/
def minimal : Options := { default with showCounts := false }

end Options

namespace Style

/-- The branch beside the groups below one that has siblings after it. -/
def branch : Style → List Char
  | ascii => ['|']
  | unicode => ['│']
  | compact => []

/-- The corner in front of a group. -/
def corner : Style → Bool → List Char
  | ascii, false => ['+', '-', '-']
  | ascii, true => ['\x60', '-', '-']
  | unicode, false => ['├', '─', '─']
  | unicode, true => ['└', '─', '─']
  | compact, _ => ['-']

/-- The branch of one level, blank behind a last group. -/
def beside (s : Style) (last : Bool) : List Char :=
  if last then s.branch.map fun _ => ' ' else s.branch

@[simp] theorem length_beside (s : Style) (last : Bool) :
    (s.beside last).length = s.branch.length := by
  cases last <;> simp [beside]

/-- Both corners of a style are equally wide. -/
theorem length_corner (s : Style) (last : Bool) :
    (s.corner last).length = (s.corner false).length := by
  cases s <;> cases last <;> rfl

end Style

/-- The lead of a line inside groups with the given flags. -/
def detailLead (o : Options) (flags : List Bool) : List Char :=
  flags.flatMap fun last => o.style.beside last ++ List.replicate o.indent ' '

/-- The lead of a group inside groups with the given flags. -/
def nodeLead (o : Options) (flags : List Bool) (last : Bool) : List Char :=
  detailLead o flags ++ o.style.corner last ++ [' ']

@[simp] theorem detailLead_nil (o : Options) : detailLead o [] = [] := rfl

/-- The lead of a detail begins with the mark of the outermost group. -/
theorem detailLead_cons (o : Options) (last : Bool) (flags : List Bool) :
    detailLead o (last :: flags) =
      o.style.beside last ++ (List.replicate o.indent ' ' ++ detailLead o flags) := by
  simp [detailLead]

/-- A detail lead is as wide as its number of levels says. -/
theorem length_detailLead (o : Options) (flags : List Bool) :
    (detailLead o flags).length = flags.length * (o.style.branch.length + o.indent) := by
  induction flags with
  | nil => simp
  | cons last flags ih =>
    simp only [detailLead_cons, List.length_append, Style.length_beside, List.length_replicate,
      ih, List.length_cons]
    rw [Nat.add_mul]
    omega

end GroupedRows.Outline
