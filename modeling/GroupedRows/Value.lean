import GroupedRows.Decimal.Written
import GroupedRows.Text.Quoted

/-!
# Property values

A value is compared for grouping by its kind and its exact content: a missing
property differs from a null one, and floating-point numbers are equal when their
bits are, so a not-a-number groups with itself and the two zeros stay apart.
-/

namespace GroupedRows

/-- The value of one property of an item. -/
inductive Value where
  /-- The item does not carry the property at all. -/
  | absent
  /-- The property is there but empty. -/
  | null
  | bool (b : Bool)
  | int (n : Int)
  /-- A 64-bit floating-point number, given by its bits. -/
  | float (bits : UInt64)
  | text (s : String)
  deriving DecidableEq, Repr

namespace Value

/-- An item starts without the property. -/
instance : Inhabited Value := ⟨absent⟩

/-- An optional value, in which nothing is the null value. -/
def ofOption (v : Option Value) : Value := v.getD null

/-- Neither a missing nor an empty value carries content. -/
def isBlank : Value → Bool
  | absent | null => true
  | _ => false

/-- The content of a text. -/
def text? : Value → Option String
  | text s => some s
  | _ => none

/-- The content of an integer. -/
def int? : Value → Option Int
  | int n => some n
  | _ => none

/-- The content of a truth value. -/
def bool? : Value → Option Bool
  | bool b => some b
  | _ => none

/-- The name of a truth value. -/
def boolName (b : Bool) : String := if b then "true" else "false"

/-- What a group header shows for the value; texts stand as they are. -/
def label : Value → String
  | absent => "<absent>"
  | null => "<null>"
  | bool b => boolName b
  | int n => toString n
  | float bits => String.ofList (Decimal.Layout.plain.write (.ofBits bits))
  | text s => s

/-- The kind of the value with its content, unambiguous for every value. -/
def inspect : Value → String
  | absent => "Absent"
  | null => "Null"
  | bool b => "Bool(" ++ boolName b ++ ")"
  | int n => "Int(" ++ toString n ++ ")"
  | float bits =>
    "Float(" ++ String.ofList (Decimal.Layout.marked.write (.ofBits bits)) ++ ")"
  | text s => "Text(" ++ Text.quoted s ++ ")"

/-- Kinds are listed in this order. -/
def kindRank : Value → Nat
  | absent => 0
  | null => 1
  | bool _ => 2
  | int _ => 3
  | float _ => 4
  | text _ => 5

/-- The listing order: by kind, then by content, floating-point numbers by their bits. -/
def order : Value → Value → Ordering
  | bool a, bool b => compare a b
  | int a, int b => compare a b
  | float a, float b => compare a.toNat b.toNat
  | text a, text b => compare a b
  | v, w => compare v.kindRank w.kindRank

@[simp] theorem ofOption_some (v : Value) : ofOption (some v) = v := rfl

@[simp] theorem ofOption_none : ofOption none = null := rfl

end Value

end GroupedRows
