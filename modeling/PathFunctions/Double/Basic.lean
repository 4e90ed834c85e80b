import PathFunctions.Decimal

/-!
# Doubles

A double is its 64 bits: a sign, eleven bits of exponent and 52 of fraction. A finite one is a
whole number of `2 ^ -1074`, and so of `10 ^ -1074`, which is the unit its `magnitude` is counted
in: comparing doubles with decimals then needs natural numbers only.
-/

namespace PathFunctions

structure Double where
  bits : UInt64
  deriving DecidableEq

namespace Double

/-- Whether the highest bit is set. -/
def isNegative (d : Double) : Bool := 0x8000000000000000 ≤ d.bits.toNat

def exponentField (d : Double) : Nat := d.bits.toNat / 0x10000000000000 % 0x800

def fraction (d : Double) : Nat := d.bits.toNat % 0x10000000000000

def isFinite (d : Double) : Bool := d.exponentField < 0x7ff

def isNaN (d : Double) : Bool := !d.isFinite && d.fraction != 0

def isZero (d : Double) : Bool := d.exponentField == 0 && d.fraction == 0

/-- The fraction with its leading one, which only the smallest doubles lack. -/
def mantissa (d : Double) : Nat :=
  if d.exponentField = 0 then d.fraction else d.fraction + 0x10000000000000

/-- The number of decimal places that any finite double can be written with. -/
def places : Nat := 1074

/-- The distance to the next double away from zero, in units of `10 ^ -places`. -/
def gap (d : Double) : Nat := Nat.pow 2 (d.exponentField - 1) * Nat.pow 5 places

/-- The distance of a finite double from zero, in units of `10 ^ -places`. -/
def magnitude (d : Double) : Nat := d.mantissa * d.gap

/-- Whether a finite double is a whole number. -/
def isWhole (d : Double) : Bool := d.magnitude % tenPow places == 0

/-- A finite double without what stands after the point. -/
def whole (d : Double) : Int :=
  if d.isNegative then -(d.magnitude / tenPow places : Nat)
  else (d.magnitude / tenPow places : Nat)

/-- The same as an integer of 64 bits, or the end of their range that the double is beyond. -/
def toInt64 (d : Double) : Int64 := Int64.ofIntClamp d.whole

theorem gap_pos (d : Double) : 0 < d.gap :=
  Nat.mul_pos (natPow_pos (by decide) _) (natPow_pos (by decide) _)

end Double

end PathFunctions
