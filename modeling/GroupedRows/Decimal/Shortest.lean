import GroupedRows.Decimal.Binary

/-!
# The shortest decimal that reads back

Among the decimals that round to a given magnitude, the fewest digits win, then
the nearest; two equally near ones go up. All comparisons are between natural
numbers, so no rounding enters the selection itself.
-/

namespace GroupedRows.Decimal

/-- The decimal `digits * 10 ^ power`. -/
structure Scaled where
  digits : Nat
  power : Int
  deriving DecidableEq, Repr

/-- A magnitude and a decimal grid brought to a common scale: a point `d` of the
grid and a number `n` of quarter units satisfy `d * grid = n * quarter` when they
are the same real. -/
structure Scale where
  quarter : Nat
  grid : Nat
  deriving DecidableEq, Repr

/-- The scale of quarter units `2 ^ (exponent - 2)` against the grid `10 ^ power`. -/
def Scale.of (exponent power : Int) : Scale where
  quarter := Nat.pow 2 (exponent - 2).toNat * Nat.pow 10 (-power).toNat
  grid := Nat.pow 2 (2 - exponent).toNat * Nat.pow 10 power.toNat

namespace Magnitude

/-- Quarter units of the magnitude itself. -/
def quarters (x : Magnitude) : Nat := 4 * x.mantissa

/-- Quarter units of the lower end of the reals that round to the magnitude. -/
def lowEnd (x : Magnitude) : Nat := x.quarters - if x.nearBelow then 1 else 2

/-- Quarter units of the upper end. -/
def highEnd (x : Magnitude) : Nat := x.quarters + 2

/-- Both ends belong to the interval exactly when the mantissa is even. -/
def closed (x : Magnitude) : Bool := x.mantissa % 2 = 0

/-- Whether the grid point `d` rounds to the magnitude. -/
def readsBack (x : Magnitude) (s : Scale) (d : Nat) : Bool :=
  let point := d * s.grid
  if x.closed then x.lowEnd * s.quarter ≤ point ∧ point ≤ x.highEnd * s.quarter
  else x.lowEnd * s.quarter < point ∧ point < x.highEnd * s.quarter

/-- The better of the two grid points around the magnitude, if one reads back. -/
def nearestOn (x : Magnitude) (s : Scale) : Option Nat :=
  let value := x.quarters * s.quarter
  let below := value / s.grid
  match x.readsBack s below, x.readsBack s (below + 1) with
  | false, false => none
  | true, false => some below
  | false, true => some (below + 1)
  | true, true => some (if (2 * below + 1) * s.grid ≤ 2 * value then below + 1 else below)

/-- Number of decimal digits of a natural number. -/
def digitCount (n : Nat) : Nat := (Nat.toDigits 10 n).length

/-- The power of ten of the leading digit of a nonzero magnitude. -/
def leadingPower (x : Magnitude) : Int :=
  let s := Scale.of x.exponent 0
  let value := x.quarters * s.quarter
  if s.grid ≤ value then (digitCount (value / s.grid) : Int) - 1
  else -(digitCount ((s.grid - 1) / value) : Int)

/-- Trailing zeros move from the digits into the power; `fuel` bounds their number. -/
def trim : Nat → Nat → Int → Scaled
  | 0, digits, power => ⟨digits, power⟩
  | fuel + 1, digits, power =>
    if digits % 10 = 0 ∧ digits ≠ 0 then trim fuel (digits / 10) (power + 1) else ⟨digits, power⟩

/-- Every magnitude is a decimal: negative powers of two become powers of five over ten. -/
def exact (x : Magnitude) : Scaled :=
  ⟨x.mantissa * Nat.pow 2 x.exponent.toNat * Nat.pow 5 (-x.exponent).toNat, min x.exponent 0⟩

/-- The grids of one, two, … seventeen digits are tried in turn, and the exact value stands
behind them, so that no digit is ever a guess. -/
def shortest (x : Magnitude) : Scaled :=
  let lead := x.leadingPower
  let found := (List.range 17).findSome? fun (extra : Nat) =>
    let power := lead - extra
    (x.nearestOn (Scale.of x.exponent power)).map fun d => trim 17 d power
  found.getD x.exact

end Magnitude

end GroupedRows.Decimal
