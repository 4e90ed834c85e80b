/-!
# Decimals

Numbers with finitely many decimal places, written with their whole part first, all their places
and no exponent.
-/

namespace PathFunctions

def tenPow (k : Nat) : Nat := Nat.pow 10 k

/-- The number `digits / 10 ^ places`. -/
structure Decimal where
  digits : Nat
  places : Nat
  deriving DecidableEq

/-- The whole part, and after a point the rest if there are decimal places. -/
def Decimal.text (x : Decimal) : String :=
  if x.places = 0 then toString x.digits
  else
    let rest := toString (x.digits % tenPow x.places)
    toString (x.digits / tenPow x.places) ++ "."
      ++ String.ofList (List.replicate (x.places - rest.length) '0') ++ rest

theorem natPow_pos {b : Nat} (h : 0 < b) (k : Nat) : 0 < Nat.pow b k := Nat.pow_pos h

theorem tenPow_pos (k : Nat) : 0 < tenPow k := natPow_pos (by decide) k

theorem tenPow_zero : tenPow 0 = 1 := rfl

theorem tenPow_add (a b : Nat) : tenPow (a + b) = tenPow a * tenPow b := Nat.pow_add 10 a b

theorem tenPow_mono {a b : Nat} (h : a ≤ b) : tenPow a ≤ tenPow b :=
  Nat.pow_le_pow_right (by decide) h

theorem tenPow_dvd {a b : Nat} (h : a ≤ b) : tenPow a ∣ tenPow b := Nat.pow_dvd_pow 10 h

end PathFunctions
