import PathFunctions.Double.Basic

/-!
# The shortest decimal of a double

A decimal reads back as a double if no other double is nearer to it; halfway between two, the one
with the even mantissa is read. `shortest` goes through the grids of the powers of ten from coarse
to fine and takes a point of the first grid that has one which reads back: the one nearer to the
double, or of two equally near the one further from zero. The finest grid holds every finite
double, so there always is one.
-/

namespace PathFunctions.Double

/-- Four times the distance to the midpoint with the next double towards zero. Below a power of two
doubles lie twice as close, except at the bottom of the range. -/
def quadrupleBelow (d : Double) : Nat :=
  if d.fraction = 0 ∧ 1 < d.exponentField then d.gap else 2 * d.gap

/-- Whether `n` units read back as `d` up to the sign. -/
def readsBack (d : Double) (n : Nat) : Bool :=
  let low := 4 * d.magnitude - d.quadrupleBelow
  let high := 4 * d.magnitude + 2 * d.gap
  if d.mantissa % 2 = 0 then low ≤ 4 * n && 4 * n ≤ high else low < 4 * n && 4 * n < high

/-- The multiple of `10 ^ k` nearest to the magnitude of `d` among those that read back. -/
def nearestOn (d : Double) (k : Nat) : Option Nat :=
  let below := d.magnitude / tenPow k
  let above := below + 1
  match d.readsBack (below * tenPow k), d.readsBack (above * tenPow k) with
  | true, true => some (if 2 * (d.magnitude % tenPow k) < tenPow k then below else above)
  | true, false => some below
  | false, true => some above
  | false, false => none

/-- The decimal of `c * 10 ^ k` units. -/
def pointOn (k c : Nat) : Decimal := ⟨c * tenPow (k - places), places - k⟩

/-- A point of the coarsest grid, from `10 ^ k` units downward, that has one which reads back. -/
def coarsest (d : Double) : Nat → Decimal
  | 0 => pointOn 0 d.magnitude
  | k + 1 =>
    match d.nearestOn (k + 1) with
    | some c => pointOn (k + 1) c
    | none => d.coarsest k

/-- The shortest decimal that reads back as `d` up to the sign; all doubles are below `10 ^ 309`. -/
def shortest (d : Double) : Decimal := d.coarsest (places + 309)

theorem quadrupleBelow_pos (d : Double) : 0 < d.quadrupleBelow := by
  have := d.gap_pos
  simp only [quadrupleBelow]
  split <;> omega

theorem readsBack_magnitude {d : Double} (h : 0 < d.magnitude) :
    d.readsBack d.magnitude = true := by
  have hg := d.gap_pos
  have hb := d.quadrupleBelow_pos
  simp only [readsBack]
  split <;> simp only [Bool.and_eq_true, decide_eq_true_eq] <;> omega

theorem readsBack_of_nearestOn {d : Double} {k c : Nat} (h : d.nearestOn k = some c) :
    d.readsBack (c * tenPow k) = true := by
  simp only [nearestOn] at h
  split at h
  · simp only [Option.some.injEq] at h
    subst h
    split <;> assumption
  · simp only [Option.some.injEq] at h
    subst h
    assumption
  · simp only [Option.some.injEq] at h
    subst h
    assumption
  · cases h

end PathFunctions.Double
