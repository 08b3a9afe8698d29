import GroupedRows.Toml.Moment
import GroupedRows.Toml.Node

/-!
# Keys and values of TOML

Values nest in arrays and in tables between braces. The readers take fuel for the
characters that are left and a depth for the brackets that are open.
-/

namespace GroupedRows.Toml

/-- So many brackets, or parts of a dotted key, are too many. -/
def nestingLimit : Nat := 80

/-- Characters of a key without quotes. -/
def isBareKey (c : Char) : Bool := c.isAlphanum || c = '_' || c = '-'

/-- One part of a key, bare or quoted. -/
def simpleKey : Reader String
  | '"' :: rest => line ('"' :: rest)
  | '\'' :: rest => line ('\'' :: rest)
  | cs =>
    let name := cs.takeWhile isBareKey
    if name.isEmpty then none else some (String.ofList name, cs.dropWhile isBareKey)

/-- The parts of a key, separated by points with blanks around them. -/
def keyParts : Nat → Reader (List String)
  | 0, _ => none
  | fuel + 1, cs => do
    let (part, rest) ← simpleKey (skipBlanks cs)
    match skipBlanks rest with
    | '.' :: rest =>
      let (parts, rest) ← keyParts fuel rest
      some (part :: parts, rest)
    | rest => some ([part], rest)

/-- A key: the path before its last part, and the last part. -/
def dottedKey : Reader (List String × String) := fun cs => do
  let (parts, rest) ← keyParts cs.length cs
  let last ← parts.getLast?
  if parts.length < nestingLimit then some ((parts.dropLast, last), rest) else none

/-- Characters that end a word. -/
def endsWord (c : Char) : Bool := [' ', '\t', '\n', '\r', ',', ']', '\x7d', '#'].contains c

/-- The next word; a time that follows a date after one space belongs to it. -/
def word (cs : List Char) : List Char × List Char :=
  let first := cs.takeWhile fun c => !endsWord c
  let rest := cs.dropWhile fun c => !endsWord c
  match rest with
  | ' ' :: c :: more =>
    if isDate first ∧ isDigit c then
      (first ++ ' ' :: (c :: more).takeWhile fun c => !endsWord c,
        (c :: more).dropWhile fun c => !endsWord c)
    else (first, rest)
  | _ => (first, rest)

/-- A value without inner structure and quotes. -/
def plainValue : Reader Node := fun cs =>
  let (w, rest) := word cs
  if w = ['t', 'r', 'u', 'e'] then some (.boolean true, rest)
  else if w = ['f', 'a', 'l', 's', 'e'] then some (.boolean false, rest)
  else if isMoment w then some (.moment, rest)
  else if isFloat w then some (.float, rest)
  else (integer? w).map fun n => (.integer n, rest)

mutual

/-- Any value, inside `depth` open brackets. -/
def value (depth : Nat) : Nat → Reader Node
  | 0, _ => none
  | fuel + 1, cs =>
    match cs with
    | '"' :: _ => (text cs).map fun r => (.text r.1, r.2)
    | '\'' :: _ => (text cs).map fun r => (.text r.1, r.2)
    | '[' :: rest =>
      if nestingLimit ≤ depth + 1 then none
      else (elements (depth + 1) fuel rest).map fun r => (.array r.1, r.2)
    | '\x7b' :: rest =>
      if nestingLimit ≤ depth + 1 then none
      else
        match skipBlanks rest with
        | '\x7d' :: rest => some (.inline [], rest)
        | rest => (pairs (depth + 1) fuel [] rest).map fun r => (.inline r.1, r.2)
    | cs => plainValue cs

/-- The elements of an array up to its closing bracket, perhaps with a comma behind the last. -/
def elements (depth : Nat) : Nat → Reader (List Node)
  | 0, _ => none
  | fuel + 1, cs => do
    match ← skipLines cs.length cs with
    | ']' :: rest => some ([], rest)
    | cs =>
      let (first, rest) ← value depth fuel cs
      match ← skipLines rest.length rest with
      | ',' :: rest =>
        let (others, rest) ← elements depth fuel rest
        some (first :: others, rest)
      | ']' :: rest => some ([first], rest)
      | _ => none

/-- The pairs of a table between braces, all on one line and without a comma behind the last. -/
def pairs (depth : Nat) : Nat → Entries → Reader Entries
  | 0, _, _ => none
  | fuel + 1, entries, cs => do
    let ((path, key), rest) ← dottedKey cs
    match rest with
    | '=' :: rest =>
      let (node, rest) ← value depth fuel (skipBlanks rest)
      let entries ← entries.assign path key node
      match skipBlanks rest with
      | ',' :: rest => pairs depth fuel entries rest
      | '\x7d' :: rest => some (entries, rest)
      | _ => none
    | _ => none

end

end GroupedRows.Toml
