import PathFunctions.Double.Shortest

/-!
# The text of a double

Finite doubles are written by their shortest decimal, never with an exponent, and zero without a
sign. Whole numbers below `10 ^ 15` are written as integers, which is the same text.
-/

namespace PathFunctions.Double

/-- The shortest decimal of a finite double with its sign. -/
def plainText (d : Double) : String :=
  if d.isNegative then "-" ++ d.shortest.text else d.shortest.text

def text (d : Double) : String :=
  if d.isNaN then "NaN"
  else if !d.isFinite then if d.isNegative then "-Infinity" else "Infinity"
  else if d.isZero then "0"
  else if d.isWhole && d.whole.natAbs < tenPow 15 then toString d.toInt64.toInt
  else d.plainText

end PathFunctions.Double
