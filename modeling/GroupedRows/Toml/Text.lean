import GroupedRows.Toml.Lexical

/-!
# Texts of TOML

A text stands between single or double quotes, on one line or, with tripled quotes,
on several. Double quotes know escapes; single quotes take every character as it is.
-/

namespace GroupedRows.Toml

/-- The value of a hexadecimal digit. -/
def hexValue? (c : Char) : Option Nat :=
  if '0' ≤ c ∧ c ≤ '9' then some (c.toNat - '0'.toNat)
  else if 'a' ≤ c ∧ c ≤ 'f' then some (c.toNat - 'a'.toNat + 10)
  else if 'A' ≤ c ∧ c ≤ 'F' then some (c.toNat - 'A'.toNat + 10)
  else none

/-- The character whose code point the hexadecimal digits give, if it is one. -/
def charOfHex? (digits : List Char) : Option Char := do
  let values ← digits.mapM hexValue?
  let code := values.foldl (fun n d => 16 * n + d) 0
  if code.isValidChar then some (Char.ofNat code) else none

/-- The character for which a letter stands after a backslash. -/
def escaped? : Char → Option Char
  | 'b' => some '\x08'
  | 't' => some '\t'
  | 'n' => some '\n'
  | 'f' => some '\x0c'
  | 'r' => some '\r'
  | '"' => some '"'
  | '\\' => some '\\'
  | _ => none

/-- Puts a character in front of what a reader read. -/
def keep (c : Char) (read : Option (List Char × List Char)) : Option (List Char × List Char) :=
  read.map fun r => (c :: r.1, r.2)

/-- The text up to the closing double quote of its line. -/
def basicLine : Reader (List Char)
  | [] => none
  | '"' :: rest => some ([], rest)
  | '\\' :: 'u' :: a :: b :: c :: d :: rest =>
    (charOfHex? [a, b, c, d]).bind fun x => keep x (basicLine rest)
  | '\\' :: 'U' :: a :: b :: c :: d :: e :: f :: g :: h :: rest =>
    (charOfHex? [a, b, c, d, e, f, g, h]).bind fun x => keep x (basicLine rest)
  | '\\' :: c :: rest => (escaped? c).bind fun x => keep x (basicLine rest)
  | c :: rest => if isPrinted c then keep c (basicLine rest) else none

/-- The text up to the closing single quote of its line. -/
def literalLine : Reader (List Char)
  | [] => none
  | '\'' :: rest => some ([], rest)
  | c :: rest => if isPrinted c then keep c (literalLine rest) else none

/-- Where a text on several lines stands after a backslash that ends a line. -/
inductive Gap where
  /-- Not after such a backslash. -/
  | closed
  /-- Behind the backslash, before the break of its line. -/
  | atEnd
  /-- Among the blanks and breaks that are left out. -/
  | within
  deriving DecidableEq, Repr

/-- A character of a text: left out within a gap only if it is blank. -/
def Gap.take (g : Gap) (c : Char) (read : Gap → Option (List Char × List Char)) :
    Option (List Char × List Char) :=
  if g = .atEnd then if isBlank c then read .atEnd else none
  else if g = .within ∧ isBlank c then read .within
  else if isPrinted c then keep c (read .closed)
  else none

/-- A line break is left out in a gap and stays otherwise. -/
def Gap.break (g : Gap) (read : Gap → Option (List Char × List Char)) :
    Option (List Char × List Char) :=
  if g = .closed then keep '\n' (read .closed) else read .within

/-- An escape cannot stand between a backslash and its line break. -/
def Gap.escape (g : Gap) (c : Option Char) (read : Gap → Option (List Char × List Char)) :
    Option (List Char × List Char) :=
  if g = .atEnd then none else c.bind fun x => keep x (read .closed)

/-- The closing quotes, with the quotes that still belong to the text. -/
def Gap.close (g : Gap) (inside rest : List Char) : Option (List Char × List Char) :=
  if g = .atEnd then none else some (inside, rest)

/-- The text up to three closing double quotes; up to two more right before them are text. -/
def basicLines : Gap → Reader (List Char)
  | _, [] => none
  | g, '"' :: '"' :: '"' :: '"' :: '"' :: rest => g.close ['"', '"'] rest
  | g, '"' :: '"' :: '"' :: '"' :: rest => g.close ['"'] rest
  | g, '"' :: '"' :: '"' :: rest => g.close [] rest
  | g, '\n' :: rest => g.break fun g => basicLines g rest
  | g, '\r' :: '\n' :: rest => g.break fun g => basicLines g rest
  | g, '\\' :: 'u' :: a :: b :: c :: d :: rest =>
    g.escape (charOfHex? [a, b, c, d]) fun g => basicLines g rest
  | g, '\\' :: 'U' :: a :: b :: c :: d :: e :: f :: i :: j :: rest =>
    g.escape (charOfHex? [a, b, c, d, e, f, i, j]) fun g => basicLines g rest
  | g, '\\' :: '\n' :: rest => if g = .atEnd then none else basicLines .within rest
  | g, '\\' :: '\r' :: '\n' :: rest => if g = .atEnd then none else basicLines .within rest
  | g, '\\' :: c :: rest =>
    if isBlank c then if g = .atEnd then none else basicLines .atEnd rest
    else g.escape (escaped? c) fun g => basicLines g rest
  | g, c :: rest => g.take c fun g => basicLines g rest

/-- The text up to three closing single quotes; up to two more right before them are text. -/
def literalLines : Reader (List Char)
  | [] => none
  | '\'' :: '\'' :: '\'' :: '\'' :: '\'' :: rest => some (['\'', '\''], rest)
  | '\'' :: '\'' :: '\'' :: '\'' :: rest => some (['\''], rest)
  | '\'' :: '\'' :: '\'' :: rest => some ([], rest)
  | '\n' :: rest => keep '\n' (literalLines rest)
  | '\r' :: '\n' :: rest => keep '\n' (literalLines rest)
  | c :: rest => if isPrinted c then keep c (literalLines rest) else none

/-- The break right behind the opening quotes is not part of the text. -/
def skipFirstBreak (cs : List Char) : List Char := (lineBreak? cs).getD cs

/-- A text that starts and ends on one line. -/
def line : Reader String
  | '"' :: rest => (basicLine rest).map fun r => (String.ofList r.1, r.2)
  | '\'' :: rest => (literalLine rest).map fun r => (String.ofList r.1, r.2)
  | _ => none

/-- Any text: three opening quotes start one that may span lines. -/
def text : Reader String
  | '"' :: '"' :: '"' :: rest =>
    (basicLines .closed (skipFirstBreak rest)).map fun r => (String.ofList r.1, r.2)
  | '\'' :: '\'' :: '\'' :: rest =>
    (literalLines (skipFirstBreak rest)).map fun r => (String.ofList r.1, r.2)
  | cs => line cs

end GroupedRows.Toml
