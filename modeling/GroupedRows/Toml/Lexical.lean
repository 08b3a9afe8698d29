/-!
# Characters, blanks and line ends of TOML

Readers take the remaining characters and give back what they leave. A line may end
in a comment, and only a line feed, alone or after a carriage return, ends a line.
-/

namespace GroupedRows.Toml

/-- A reader of characters: what it read and what it left, or a refusal. -/
abbrev Reader (α : Type) := List Char → Option (α × List Char)

/-- Spaces and tabs separate within a line. -/
def isBlank (c : Char) : Bool := c = ' ' || c = '\t'

/-- Characters that comments and texts may hold: no control character but the tab. -/
def isPrinted (c : Char) : Bool := c = '\t' || (32 ≤ c.toNat && c.toNat ≠ 127)

/-- The rest of the line without its leading blanks. -/
def skipBlanks (cs : List Char) : List Char := cs.dropWhile isBlank

/-- The rest after one line break. -/
def lineBreak? : List Char → Option (List Char)
  | '\n' :: rest => some rest
  | '\r' :: '\n' :: rest => some rest
  | _ => none

/-- The rest after a comment, if one stands here. -/
def skipComment : List Char → List Char
  | '#' :: rest => rest.dropWhile isPrinted
  | cs => cs

/-- The rest after the end of a line: blanks, perhaps a comment, then a break or the end of
the text. -/
def lineEnd? (cs : List Char) : Option (List Char) :=
  match skipComment (skipBlanks cs) with
  | [] => some []
  | rest => lineBreak? rest

/-- The rest after any number of blanks, line breaks and comments; `fuel` bounds their number.
A comment must end its line. -/
def skipLines : Nat → List Char → Option (List Char)
  | 0, cs => some cs
  | fuel + 1, cs =>
    match skipBlanks cs with
    | '#' :: rest => (lineEnd? ('#' :: rest)).bind (skipLines fuel)
    | rest =>
      match lineBreak? rest with
      | some rest => skipLines fuel rest
      | none => some rest

end GroupedRows.Toml
