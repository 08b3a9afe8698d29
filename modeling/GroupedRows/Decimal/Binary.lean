/-!
# Binary floating-point values from their bits

A 64-bit pattern is read as a sign together with not-a-number, infinity or a
natural mantissa times a power of two. The magnitude keeps exactly what rounding
to the nearest pattern needs: the mantissa and whether the neighbour below is near.
-/

namespace GroupedRows.Decimal

/-- The finite magnitude `mantissa * 2 ^ exponent`. -/
structure Magnitude where
  /-- Integer significand; zero only for zero. -/
  mantissa : Nat
  /-- Power of two that scales the significand. -/
  exponent : Int
  /-- The gap to the magnitude below is half the gap to the one above. -/
  nearBelow : Bool
  deriving DecidableEq, Repr

/-- What a 64-bit pattern stands for. -/
inductive Binary where
  | notANumber
  | infinite (negative : Bool)
  | finite (negative : Bool) (magnitude : Magnitude)
  deriving DecidableEq, Repr

/-- The bit below the exponent field is worth `2 ^ 52` in a normal significand. -/
def hiddenBit : Nat := Nat.pow 2 52

/-- Reads one sign bit, eleven exponent bits and fifty-two fraction bits. -/
def Binary.ofBits (bits : UInt64) : Binary :=
  let pattern := bits.toNat
  let negative := Nat.pow 2 63 ≤ pattern
  let field := pattern / hiddenBit % 2048
  let fraction := pattern % hiddenBit
  if field = 2047 then
    if fraction = 0 then .infinite negative else .notANumber
  else if field = 0 then
    .finite negative ⟨fraction, -1074, false⟩
  else
    .finite negative ⟨hiddenBit + fraction, field - 1075, fraction = 0 ∧ 1 < field⟩

end GroupedRows.Decimal
