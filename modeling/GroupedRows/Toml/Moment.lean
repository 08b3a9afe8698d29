import GroupedRows.Toml.Number

/-!
# Dates and times of TOML

A moment is a date, a time, or both with an optional offset. Days are checked
against the length of their month, leap years included.
-/

namespace GroupedRows.Toml

/-- A number of exactly `count` digits at the front. -/
def fixedDigits (count : Nat) : Reader Nat := fun cs =>
  let digits := cs.take count
  if digits.length = count ∧ digits.all isDigit then
    some (ofDigits 10 digits, cs.drop count)
  else none

/-- The rest after one of the given characters. -/
def after? (allowed : List Char) : List Char → Option (List Char)
  | c :: rest => if allowed.contains c then some rest else none
  | [] => none

/-- Every fourth year but the full centuries, of which every fourth. -/
def isLeap (year : Nat) : Bool :=
  year % 4 = 0 && (year % 100 != 0 || year % 400 = 0)

/-- Number of days of a month. -/
def daysIn (year month : Nat) : Nat :=
  if month = 2 then if isLeap year then 29 else 28
  else if [4, 6, 9, 11].contains month then 30
  else 31

/-- The rest after a calendar date. -/
def date? (cs : List Char) : Option (List Char) := do
  let (year, cs) ← fixedDigits 4 cs
  let (month, cs) ← fixedDigits 2 (← after? ['-'] cs)
  let (day, cs) ← fixedDigits 2 (← after? ['-'] cs)
  if 1 ≤ month ∧ month ≤ 12 ∧ 1 ≤ day ∧ day ≤ daysIn year month then some cs else none

/-- The rest after hours and minutes. -/
def clock? (cs : List Char) : Option (List Char) := do
  let (hour, cs) ← fixedDigits 2 cs
  let (minute, cs) ← fixedDigits 2 (← after? [':'] cs)
  if hour ≤ 23 ∧ minute ≤ 59 then some cs else none

/-- The rest after the digits of a fraction of a second, if a point stands here. -/
def fraction? : List Char → Option (List Char)
  | '.' :: rest => if (rest.takeWhile isDigit).isEmpty then none else some (rest.dropWhile isDigit)
  | cs => some cs

/-- The rest after a time of day; a leap second is the sixtieth of its minute. -/
def time? (cs : List Char) : Option (List Char) := do
  let cs ← clock? cs
  let (second, cs) ← fixedDigits 2 (← after? [':'] cs)
  if second ≤ 60 then fraction? cs else none

/-- Whether the characters are nothing or an offset from universal time. -/
def isOffset : List Char → Bool
  | [] => true
  | ['Z'] => true
  | ['z'] => true
  | '+' :: cs => clock? cs = some []
  | '-' :: cs => clock? cs = some []
  | _ => false

/-- Whether a word is a date, a time, or a date and a time. -/
def isMoment (word : List Char) : Bool :=
  match date? word with
  | some [] => true
  | some rest =>
    match (after? ['T', 't', ' '] rest).bind time? with
    | some offset => isOffset offset
    | none => false
  | none => time? word = some []

/-- Whether a word is a date that a time may still follow. -/
def isDate (word : List Char) : Bool := date? word = some []

end GroupedRows.Toml
