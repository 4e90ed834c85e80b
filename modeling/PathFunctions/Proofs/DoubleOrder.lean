import Mathlib.Algebra.Order.Field.Rat
import Mathlib.Data.Int.ConditionallyCompleteOrder
import Mathlib.Tactic.FieldSimp
import Mathlib.Tactic.Ring
import PathFunctions.Double.Shortest

/-!
# Doubles in their order

The finite doubles from zero upwards are numbered by their bits, and those from zero downwards in
the same way (`place`). The exact value of a double is that of its place, values grow strictly with
the places (`valueAt_strictMono`), and a place other than that of the two zeros has one double
(`eq_of_place_eq`).
-/

namespace PathFunctions.Double

section Values

/-- Minus one for the doubles with a sign and one for the others. -/
def sign (d : Double) : ℚ := if d.isNegative then -1 else 1

/-- The exact value of a finite double: its mantissa times a power of two. -/
def value (d : Double) : ℚ :=
  d.sign * (d.mantissa * 2 ^ ((max d.exponentField 1 : ℕ) - 1075 : ℤ))

/-- The number of doubles of the same sign that are nearer to zero. -/
def rank (d : Double) : ℕ := d.bits.toNat % 0x8000000000000000

/-- The rank, counted downwards for doubles with a sign. -/
def place (d : Double) : ℤ := if d.isNegative then -(d.rank : ℤ) else d.rank

/-- The finite doubles are those of a smaller rank. -/
def rankLimit : ℕ := 0x7ff0000000000000

def gapAt (r : ℕ) : ℕ := Nat.pow 2 (r / 0x10000000000000 - 1) * Nat.pow 5 places

/-- The magnitude of the doubles of rank `r`. -/
def magnitudeAt (r : ℕ) : ℕ :=
  (if r / 0x10000000000000 = 0 then r % 0x10000000000000
    else r % 0x10000000000000 + 0x10000000000000) * gapAt r

/-- The value of the doubles in place `k`. -/
def valueAt (k : ℤ) : ℚ := k.sign * (magnitudeAt k.natAbs / tenPow places)

end Values

section Fields

variable (d : Double)

theorem bits_toNat_lt : d.bits.toNat < 0x10000000000000000 := d.bits.toNat_lt

theorem exponentField_eq : d.exponentField = d.rank / 0x10000000000000 := by
  have := d.bits_toNat_lt
  simp only [exponentField, rank]
  omega

theorem fraction_eq : d.fraction = d.rank % 0x10000000000000 := by
  simp only [fraction, rank]
  omega

theorem isFinite_iff : d.isFinite = true ↔ d.rank < rankLimit := by
  rw [isFinite, decide_eq_true_eq, exponentField_eq, rankLimit]
  omega

theorem isZero_iff : d.isZero = true ↔ d.rank = 0 := by
  rw [isZero, Bool.and_eq_true, beq_iff_eq, beq_iff_eq, exponentField_eq, fraction_eq]
  omega

variable {d} in
theorem isNaN_eq_false (h : d.isFinite = true) : d.isNaN = false := by
  rw [isNaN, h]
  rfl

theorem mantissa_eq : d.mantissa = if d.rank / 0x10000000000000 = 0 then
    d.rank % 0x10000000000000 else d.rank % 0x10000000000000 + 0x10000000000000 := by
  rw [mantissa, exponentField_eq, fraction_eq]

theorem gap_eq : d.gap = gapAt d.rank := by
  rw [gap, exponentField_eq, gapAt]

theorem magnitude_eq : d.magnitude = magnitudeAt d.rank := by
  rw [magnitude, mantissa_eq, gap_eq, magnitudeAt]

theorem natAbs_place : d.place.natAbs = d.rank := by
  simp only [place]
  split <;> simp

theorem mantissa_mod_two : d.mantissa % 2 = 0 ↔ d.place % 2 = 0 := by
  have := d.natAbs_place
  rw [mantissa_eq]
  split <;> omega

theorem bits_toNat_eq :
    d.bits.toNat = if d.isNegative then 0x8000000000000000 + d.rank else d.rank := by
  have := d.bits_toNat_lt
  simp only [isNegative, rank, decide_eq_true_eq]
  split <;> omega

variable {d} {e : Double}

theorem eq_of_rank_eq (hs : d.isNegative = e.isNegative) (hr : d.rank = e.rank) : d = e := by
  have hbits : d.bits.toNat = e.bits.toNat := by
    rw [bits_toNat_eq, bits_toNat_eq, hs, hr]
  cases d
  cases e
  exact congrArg mk (UInt64.toNat_inj.mp hbits)

theorem eq_of_place_eq (h : d.place = e.place) (hne : d.rank ≠ 0) : d = e := by
  have hr : d.rank = e.rank := by rw [← natAbs_place, h, natAbs_place]
  refine eq_of_rank_eq ?_ hr
  simp only [place] at h
  cases hd : d.isNegative <;> cases he : e.isNegative <;> simp [hd, he] at h ⊢ <;> omega

/-- Every place that a finite double can have has one. -/
theorem exists_place {k : ℤ} (hk : k.natAbs < rankLimit) :
    ∃ d : Double, d.isFinite = true ∧ d.place = k := by
  rw [rankLimit] at hk
  let bits := if k < 0 then 0x8000000000000000 + k.natAbs else k.natAbs
  have hbits : (UInt64.ofNat bits).toNat = bits := by
    refine UInt64.toNat_ofNat_of_lt' ?_
    simp only [bits, UInt64.size]
    split <;> omega
  refine ⟨⟨UInt64.ofNat bits⟩, ?_, ?_⟩
  · rw [isFinite_iff, rankLimit, rank, hbits]
    simp only [bits]
    split <;> omega
  · simp only [place, isNegative, rank, hbits, decide_eq_true_eq, bits]
    split <;> split <;> omega

end Fields

section Spacing

theorem gapAt_pos (r : ℕ) : 0 < gapAt r :=
  Nat.mul_pos (natPow_pos (by decide) _) (natPow_pos (by decide) _)

theorem magnitudeAt_zero : magnitudeAt 0 = 0 := by
  rw [magnitudeAt, if_pos (Nat.zero_div _), Nat.zero_mod, Nat.zero_mul]

/-- The next double further from zero is one gap away, also where the gap changes. -/
theorem magnitudeAt_succ (r : ℕ) : magnitudeAt (r + 1) = magnitudeAt r + gapAt r := by
  simp only [magnitudeAt, gapAt]
  generalize hF : Nat.pow 5 places = F
  by_cases hseam : (r + 1) % 0x10000000000000 = 0
  · have hmod : r % 0x10000000000000 = 0xfffffffffffff := by omega
    have hdiv : (r + 1) / 0x10000000000000 = r / 0x10000000000000 + 1 := by omega
    rw [hseam, hmod, hdiv, if_neg (Nat.succ_ne_zero _), Nat.add_sub_cancel]
    rcases r / 0x10000000000000 with _ | e
    · rw [if_pos rfl]
      ring
    · rw [if_neg (Nat.succ_ne_zero _), Nat.add_sub_cancel,
        show Nat.pow 2 (e + 1) = Nat.pow 2 e * 2 from rfl]
      ring
  · have hmod : (r + 1) % 0x10000000000000 = r % 0x10000000000000 + 1 := by omega
    have hdiv : (r + 1) / 0x10000000000000 = r / 0x10000000000000 := by omega
    rw [hmod, hdiv]
    split <;> ring

theorem magnitudeAt_strictMono : StrictMono magnitudeAt :=
  strictMono_nat_of_lt_succ fun r => by
    rw [magnitudeAt_succ]
    exact Nat.lt_add_of_pos_right (gapAt_pos r)

theorem tenPow_cast_pos (k : ℕ) : (0 : ℚ) < tenPow k := Nat.cast_pos.mpr (tenPow_pos k)

theorem two_zpow_eq (e : ℕ) :
    (2 : ℚ) ^ ((max e 1 : ℕ) - 1075 : ℤ) = (Nat.pow 2 (e - 1) * Nat.pow 5 places : ℕ)
      / tenPow places := by
  have hexp : ((max e 1 : ℕ) - 1075 : ℤ) = ((e - 1 : ℕ) : ℤ) - (places : ℤ) := by
    simp only [places]
    omega
  have hten : (tenPow places : ℚ) = 2 ^ places * 5 ^ places := by
    rw [tenPow, Nat.pow_eq, Nat.cast_pow, ← mul_pow]
    norm_num
  rw [hexp, zpow_sub₀ (by norm_num), zpow_natCast, zpow_natCast, hten, Nat.pow_eq, Nat.pow_eq,
    Nat.cast_mul, Nat.cast_pow, Nat.cast_pow]
  field_simp
  norm_num

theorem valueAt_natCast (r : ℕ) : valueAt r = magnitudeAt r / tenPow places := by
  rw [valueAt, Int.natAbs_natCast]
  rcases r with _ | r
  · rw [magnitudeAt_zero]
    simp only [Nat.cast_zero, zero_div, mul_zero]
  · rw [Int.sign_eq_one_of_pos (by omega), Int.cast_one, one_mul]

theorem valueAt_natCast_eq (r : ℕ) :
    valueAt r = (if r / 0x10000000000000 = 0 then r % 0x10000000000000
      else r % 0x10000000000000 + 0x10000000000000 : ℕ)
        * 2 ^ ((max (r / 0x10000000000000) 1 : ℕ) - 1075 : ℤ) := by
  rw [valueAt_natCast, two_zpow_eq, magnitudeAt, gapAt, Nat.cast_mul, mul_div_assoc]

theorem valueAt_zero : valueAt 0 = 0 := by
  rw [valueAt, Int.sign_zero, Int.cast_zero, zero_mul]

theorem valueAt_neg (k : ℤ) : valueAt (-k) = -valueAt k := by
  rw [valueAt, valueAt, Int.sign_neg, Int.natAbs_neg]
  push_cast
  ring

theorem valueAt_natCast_lt (r : ℕ) : valueAt r < valueAt (r + 1 : ℕ) := by
  rw [valueAt_natCast, valueAt_natCast]
  refine div_lt_div_of_pos_right ?_ (tenPow_cast_pos places)
  exact_mod_cast magnitudeAt_strictMono (Nat.lt_succ_self r)

theorem valueAt_strictMono : StrictMono valueAt := by
  refine strictMono_int_of_lt_succ fun k => ?_
  rcases k with r | r
  · exact valueAt_natCast_lt r
  · have hsucc : Int.negSucc r + 1 = -(r : ℤ) := by omega
    rw [hsucc, Int.negSucc_eq, valueAt_neg, valueAt_neg]
    exact neg_lt_neg (valueAt_natCast_lt r)

end Spacing

section Places

variable (d : Double)

theorem mantissa_mul_zpow :
    (d.mantissa : ℚ) * 2 ^ ((max d.exponentField 1 : ℕ) - 1075 : ℤ)
      = d.magnitude / tenPow places := by
  rw [two_zpow_eq, magnitude, gap]
  push_cast
  ring

theorem value_eq_sign_mul : d.value = d.sign * (d.magnitude / tenPow places) := by
  rw [value, mantissa_mul_zpow]

theorem value_eq : d.value = valueAt d.place := by
  rw [value_eq_sign_mul, magnitude_eq, ← valueAt_natCast, sign, place]
  split
  · rw [valueAt_neg, neg_one_mul]
  · rw [one_mul]

variable {d} {e : Double}

theorem place_eq_of_value_eq (h : d.value = e.value) : d.place = e.place := by
  rw [value_eq, value_eq] at h
  exact valueAt_strictMono.injective h

theorem value_eq_zero_iff : d.value = 0 ↔ d.rank = 0 := by
  rw [value_eq, ← valueAt_zero, valueAt_strictMono.injective.eq_iff, ← natAbs_place,
    Int.natAbs_eq_zero]

theorem value_neg_iff (h : d.rank ≠ 0) : d.value < 0 ↔ d.isNegative = true := by
  rw [value_eq, ← valueAt_zero, valueAt_strictMono.lt_iff_lt, place]
  split
  · rename_i hs
    exact iff_of_true (by omega) hs
  · rename_i hs
    exact iff_of_false (by omega) hs

end Places

end PathFunctions.Double
