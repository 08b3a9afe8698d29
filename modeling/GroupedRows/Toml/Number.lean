import GroupedRows.Toml.Text

/-!
# Numbers of TOML

A number is read from a whole word. Underscores may stand between digits; integers
have 64 bits, and a floating-point number must not overflow to positive infinity.
-/

namespace GroupedRows.Toml

/-- A decimal digit. -/
def isDigit (c : Char) : Bool := '0' ≤ c && c ≤ '9'

/-- The digits of a word in which each underscore stands between two digits. -/
def spacedDigits? (isDigit : Char → Bool) : Bool → List Char → Option (List Char)
  | afterDigit, [] => if afterDigit then some [] else none
  | afterDigit, c :: rest =>
    if isDigit c then (spacedDigits? isDigit true rest).map (c :: ·)
    else if c = '_' ∧ afterDigit then spacedDigits? isDigit false rest
    else none

/-- The natural number that digits stand for. -/
def ofDigits (base : Nat) (digits : List Char) : Nat :=
  digits.foldl (fun n c => base * n + (hexValue? c).getD 0) 0

/-- Decimal digits without a superfluous leading zero. -/
def decimalDigits? (word : List Char) : Option (List Char) :=
  if word.head? = some '0' ∧ 1 < word.length then none else spacedDigits? isDigit false word

/-- Splits a sign off a word and tells whether it is a minus. -/
def splitSign : List Char → Bool × List Char
  | '-' :: rest => (true, rest)
  | '+' :: rest => (false, rest)
  | word => (false, word)

/-- Bounds of a signed 64-bit integer. -/
def inRange (n : Int) : Bool := -Int.pow 2 63 ≤ n ∧ n < Int.pow 2 63

/-- Digits of another base, which take no sign. -/
def based? (base : Nat) (word : List Char) : Option Int := do
  let digits ← spacedDigits? (fun c => (hexValue? c).any (· < base)) false word
  let n : Int := ofDigits base digits
  if inRange n then some n else none

/-- The integer that a word stands for. -/
def integer? : List Char → Option Int
  | '0' :: 'x' :: rest => based? 16 rest
  | '0' :: 'o' :: rest => based? 8 rest
  | '0' :: 'b' :: rest => based? 2 rest
  | word => do
    let (negative, digits) := splitSign word
    let n : Int := ofDigits 10 (← decimalDigits? digits)
    let n := if negative then -n else n
    if inRange n then some n else none

/-- Whether the decimal `mantissa * 10 ^ power` rounds to infinity in 64 bits; far from the
boundary the number of digits decides. -/
def overflows (mantissa : Nat) (power : Int) : Bool :=
  let lead := (Nat.toDigits 10 mantissa).length + power
  if mantissa = 0 ∨ lead < 309 then false
  else if 310 < lead then true
  else
    (Nat.pow 2 54 - 1) * Nat.pow 2 970 * Nat.pow 10 (-power).toNat ≤
      mantissa * Nat.pow 10 power.toNat

/-- The exponent behind a mantissa: nothing, or a mark and an optionally signed number. -/
def exponent? : List Char → Option Int
  | [] => some 0
  | c :: rest => do
    if c = 'e' ∨ c = 'E' then
      let (negative, digits) := splitSign rest
      let n : Int := ofDigits 10 (← spacedDigits? isDigit false digits)
      some (if negative then -n else n)
    else none

/-- Characters of the digits of one part of a number. -/
def isDigitOrGap (c : Char) : Bool := isDigit c || c = '_'

/-- Whether a word is a floating-point number: a fraction, an exponent or a special value. -/
def isFloat (word : List Char) : Bool :=
  let (negative, unsigned) := splitSign word
  if unsigned = ['i', 'n', 'f'] ∨ unsigned = ['n', 'a', 'n'] then true
  else
    let whole := unsigned.takeWhile isDigitOrGap
    let tail := unsigned.dropWhile isDigitOrGap
    let parts : Option (Nat × Int) := do
      let whole ← decimalDigits? whole
      match tail with
      | [] => none
      | '.' :: rest =>
        let fraction ← spacedDigits? isDigit false (rest.takeWhile isDigitOrGap)
        let power ← exponent? (rest.dropWhile isDigitOrGap)
        some (ofDigits 10 (whole ++ fraction), power - fraction.length)
      | rest => some (ofDigits 10 whole, ← exponent? rest)
    match parts with
    | none => false
    | some (mantissa, power) => negative || !overflows mantissa power

end GroupedRows.Toml
