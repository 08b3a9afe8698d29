import GroupedRows.Decimal.Shortest

/-!
# Written floating-point numbers

The layout of a number is one record of decisions. The plain layout is always
positional; the marked one shows that the number is not an integer and resorts to
an exponent for very small and very large magnitudes.
-/

namespace GroupedRows.Decimal

/-- How a decimal is laid out. -/
structure Layout where
  /-- Whole numbers end in a point and a zero. -/
  marksWhole : Bool
  /-- Magnitudes below `10 ^ -4` and from `10 ^ 16` on are written with an exponent. -/
  usesExponent : Bool
  deriving DecidableEq, Repr

/-- Digits only: `1`, `0.1`, `1000000000000000000000`. -/
def Layout.plain : Layout := ⟨false, false⟩

/-- The layout that cannot be taken for an integer: `1.0`, `1e16`, `1.5e-5`. -/
def Layout.marked : Layout := ⟨true, true⟩

/-- Digits with a point after the first `point` of them, filled up with zeros on either side. -/
def Layout.positional (l : Layout) (digits : List Char) (point : Int) : List Char :=
  if point ≤ 0 then '0' :: '.' :: List.replicate (-point).toNat '0' ++ digits
  else if digits.length ≤ point.toNat then
    digits ++ List.replicate (point.toNat - digits.length) '0' ++
      if l.marksWhole then ['.', '0'] else []
  else digits.take point.toNat ++ '.' :: digits.drop point.toNat

/-- One digit before the point, the others behind it, then the power of ten. -/
def scientific (digits : List Char) (power : Int) : List Char :=
  digits.take 1 ++ (if digits.length ≤ 1 then [] else '.' :: digits.drop 1) ++
    'e' :: (toString power).toList

/-- A nonzero decimal; the power of its leading digit decides between the two forms. -/
def Layout.decimal (l : Layout) (d : Scaled) : List Char :=
  let digits := Nat.toDigits 10 d.digits
  let lead := d.power + digits.length - 1
  if l.usesExponent ∧ (lead < -4 ∨ 16 ≤ lead) then scientific digits lead
  else l.positional digits (lead + 1)

/-- The sign stands before every negative number, negative zero included. -/
def signed (negative : Bool) (text : List Char) : List Char :=
  if negative then '-' :: text else text

/-- The written form of any 64-bit pattern. -/
def Layout.write (l : Layout) : Binary → List Char
  | .notANumber => ['N', 'a', 'N']
  | .infinite negative => signed negative ['i', 'n', 'f']
  | .finite negative x =>
    signed negative <|
      if x.mantissa = 0 then '0' :: if l.marksWhole then ['.', '0'] else []
      else l.decimal x.shortest

end GroupedRows.Decimal
