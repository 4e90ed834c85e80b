import Mathlib.Algebra.Order.Ring.Abs
import Mathlib.Tactic.Linarith
import PathFunctions.Proofs.DoubleOrder

/-!
# Rounding to the nearest double

A number rounds to a double if no other is nearer, where of two equally near ones the one with the
even mantissa counts (`RoundsTo`). The numbers that round to a double lie between the midpoints with
its two neighbours (`roundsTo_iff`), so a number rounds to one double at most
(`RoundsTo.place_eq`), and reading back is rounding (`readsBack_iff`).
-/

namespace PathFunctions.Double

/-- The midpoint of the highest double and the power of two that comes next. -/
def rangeEnd : ℚ := 2 ^ 1024 - 2 ^ 970

/-- The double nearest to a number, or the one with the even mantissa of two that are. Numbers from
`rangeEnd` on round to none. -/
structure RoundsTo (x : ℚ) (d : Double) : Prop where
  isFinite : d.isFinite = true
  nearest : ∀ e : Double, e.isFinite = true → |x - d.value| ≤ |x - e.value|
  even : ∀ e : Double, e.isFinite = true → e.value ≠ d.value →
    |x - e.value| = |x - d.value| → d.mantissa % 2 = 0
  inRange : |x| < rangeEnd

section Distance

variable {x a b : ℚ}

theorem abs_sub_le_abs_sub_iff (h : a < b) : |x - a| ≤ |x - b| ↔ 2 * x ≤ a + b := by
  have hfactor : (x - b) ^ 2 - (x - a) ^ 2 = (b - a) * (a + b - 2 * x) := by ring
  rw [← sq_le_sq, ← sub_nonneg, hfactor, mul_nonneg_iff_of_pos_left (sub_pos.mpr h), sub_nonneg]

theorem abs_sub_le_abs_sub_iff' (h : b < a) : |x - a| ≤ |x - b| ↔ a + b ≤ 2 * x := by
  have hfactor : (x - b) ^ 2 - (x - a) ^ 2 = (a - b) * (2 * x - (a + b)) := by ring
  rw [← sq_le_sq, ← sub_nonneg, hfactor, mul_nonneg_iff_of_pos_left (sub_pos.mpr h), sub_nonneg]

theorem abs_sub_eq_abs_sub_iff (h : b ≠ a) : |x - b| = |x - a| ↔ 2 * x = a + b := by
  have hfactor : (x - b) ^ 2 - (x - a) ^ 2 = (b - a) * (a + b - 2 * x) := by ring
  rw [← sq_eq_sq_iff_abs_eq_abs, ← sub_eq_zero, hfactor,
    mul_eq_zero_iff_left (sub_ne_zero.mpr h), sub_eq_zero, eq_comm]

end Distance

section Midpoints

/-- `x` is not beyond the midpoints of place `k` with the places next to it, and on one only if
`k` is even. -/
structure Between (x : ℚ) (k : ℤ) : Prop where
  above : valueAt (k - 1) + valueAt k ≤ 2 * x
  below : 2 * x ≤ valueAt k + valueAt (k + 1)
  even : valueAt (k - 1) + valueAt k = 2 * x ∨ 2 * x = valueAt k + valueAt (k + 1) → k % 2 = 0

theorem between_iff {x : ℚ} {k : ℤ} : Between x k ↔ valueAt (k - 1) + valueAt k ≤ 2 * x
    ∧ 2 * x ≤ valueAt k + valueAt (k + 1)
    ∧ (valueAt (k - 1) + valueAt k = 2 * x ∨ 2 * x = valueAt k + valueAt (k + 1) → k % 2 = 0) :=
  ⟨fun h => ⟨h.above, h.below, h.even⟩, fun h => ⟨h.1, h.2.1, h.2.2⟩⟩

theorem Between.neg {x : ℚ} {k : ℤ} (h : Between x k) : Between (-x) (-k) where
  above := by
    have := h.below
    rw [show -k - 1 = -(k + 1) by ring, valueAt_neg, valueAt_neg]
    linarith
  below := by
    have := h.above
    rw [show -k + 1 = -(k - 1) by ring, valueAt_neg, valueAt_neg]
    linarith
  even hor := by
    have heven := h.even
    rw [show -k - 1 = -(k + 1) by ring, show -k + 1 = -(k - 1) by ring, valueAt_neg, valueAt_neg,
      valueAt_neg] at hor
    have hor' : valueAt (k - 1) + valueAt k = 2 * x ∨ 2 * x = valueAt k + valueAt (k + 1) := by
      rcases hor with hor | hor
      · exact .inr (by linarith)
      · exact .inl (by linarith)
    have := heven hor'
    omega

/-- The places where a number can be nearest are all the same. -/
theorem Between.unique {x : ℚ} {k j : ℤ} (hk : Between x k) (hj : Between x j) : k = j := by
  have hlt : ∀ {k j : ℤ}, Between x k → Between x j → ¬ k < j := by
    intro k j hk hj hlt
    have hbelow := hk.below
    have habove := hj.above
    rcases eq_or_lt_of_le (Int.add_one_le_iff.mpr hlt) with rfl | hlt
    · rw [add_sub_cancel_right] at habove
      have hmid := le_antisymm hbelow habove
      have := hk.even (.inr hmid)
      have := hj.even (.inl (by rw [add_sub_cancel_right]; exact hmid.symm))
      omega
    · have hfirst : valueAt k < valueAt (k + 1) := valueAt_strictMono (by omega)
      have hsecond : valueAt (k + 1) ≤ valueAt (j - 1) := valueAt_strictMono.monotone (by omega)
      have hthird : valueAt (j - 1) < valueAt j := valueAt_strictMono (by omega)
      linarith
  exact le_antisymm (not_lt.mp (hlt hj hk)) (not_lt.mp (hlt hk hj))

theorem Between.convex {a b x : ℚ} {k : ℤ} (ha : Between a k) (hb : Between b k) (hax : a ≤ x)
    (hxb : x ≤ b) : Between x k where
  above := ha.above.trans (by linarith)
  below := le_trans (by linarith) hb.below
  even h := by
    rcases h with h | h
    · exact ha.even (.inl (le_antisymm ha.above (by linarith)))
    · exact hb.even (.inr (le_antisymm hb.below (by linarith)))

theorem valueAt_limit : valueAt (rankLimit - 1 : ℕ) + valueAt rankLimit = 2 * rangeEnd := by
  have hlow : valueAt (rankLimit - 1 : ℕ) = (2 ^ 53 - 1) * 2 ^ 971 := by
    rw [valueAt_natCast_eq]
    norm_num [rankLimit]
  have hhigh : valueAt rankLimit = 2 ^ 52 * 2 ^ 972 := by
    rw [valueAt_natCast_eq]
    norm_num [rankLimit]
  rw [hlow, hhigh, rangeEnd, show 971 = 970 + 1 from rfl, show 972 = 970 + 2 from rfl,
    show 1024 = 970 + 54 from rfl, pow_add, pow_add, pow_add]
  generalize (2 : ℚ) ^ 970 = unit
  ring

theorem Between.lt_limit {x : ℚ} {k : ℤ} (h : Between x k) (hk : k.natAbs < rankLimit) :
    x < rangeEnd := by
  have hlimit := valueAt_limit
  have hbelow := h.below
  by_cases hlast : k = (rankLimit - 1 : ℕ)
  · have hnext : k + 1 = rankLimit := by rw [hlast, rankLimit]; rfl
    rw [hnext, hlast, hlimit] at hbelow
    -- The highest double has an odd mantissa.
    refine lt_of_le_of_ne (by linarith) fun heq => ?_
    have := h.even (.inr (by rw [hnext, hlast, hlimit, heq]))
    rw [hlast, rankLimit] at this
    cases this
  · have hle : k + 1 ≤ (rankLimit - 1 : ℕ) := by
      rw [rankLimit] at hk hlast ⊢
      omega
    have hfirst : valueAt k < valueAt (k + 1) := valueAt_strictMono (by omega)
    have hsecond := valueAt_strictMono.monotone hle
    have hthird : valueAt (rankLimit - 1 : ℕ) < valueAt rankLimit :=
      valueAt_strictMono (by rw [rankLimit]; decide)
    linarith

end Midpoints

section Rounding

variable {x y : ℚ} {d e : Double}

theorem natAbs_place_lt (h : d.isFinite = true) : d.place.natAbs < rankLimit := by
  rw [natAbs_place]
  exact (isFinite_iff d).mp h

theorem RoundsTo.le (h : RoundsTo x d) {j : ℤ} (hj : j.natAbs < rankLimit) :
    |x - valueAt d.place| ≤ |x - valueAt j|
      ∧ (j ≠ d.place → 2 * x = valueAt d.place + valueAt j → d.place % 2 = 0) := by
  obtain ⟨e, he, rfl⟩ := exists_place hj
  rw [← value_eq, ← value_eq]
  refine ⟨h.nearest e he, fun hne hmid => (mantissa_mod_two d).mp (h.even e he ?_ ?_)⟩
  · exact fun hvalue => hne (place_eq_of_value_eq hvalue)
  · refine (abs_sub_eq_abs_sub_iff fun hvalue => hne ?_).mpr hmid
    exact place_eq_of_value_eq hvalue

theorem RoundsTo.between (h : RoundsTo x d) : Between x d.place := by
  have hlimit := valueAt_limit
  have hplace := natAbs_place_lt h.isFinite
  obtain ⟨hlow, hhigh⟩ := abs_lt.mp h.inRange
  have hbelow : 2 * x ≤ valueAt d.place + valueAt (d.place + 1)
      ∧ (2 * x = valueAt d.place + valueAt (d.place + 1) → d.place % 2 = 0) := by
    by_cases hnext : (d.place + 1).natAbs < rankLimit
    · obtain ⟨hle, heven⟩ := h.le hnext
      exact ⟨(abs_sub_le_abs_sub_iff (valueAt_strictMono (lt_add_one _))).mp hle,
        heven (lt_add_one _).ne'⟩
    · have hlast : d.place = (rankLimit - 1 : ℕ) ∧ d.place + 1 = rankLimit := by
        rw [rankLimit] at hplace hnext ⊢
        omega
      rw [hlast.2, hlast.1, hlimit]
      exact ⟨by linarith, fun heq => absurd heq (by linarith)⟩
  have habove : valueAt (d.place - 1) + valueAt d.place ≤ 2 * x
      ∧ (valueAt (d.place - 1) + valueAt d.place = 2 * x → d.place % 2 = 0) := by
    by_cases hnext : (d.place - 1).natAbs < rankLimit
    · obtain ⟨hle, heven⟩ := h.le hnext
      rw [add_comm]
      exact ⟨(abs_sub_le_abs_sub_iff' (valueAt_strictMono (sub_one_lt _))).mp hle,
        fun heq => heven (sub_one_lt _).ne heq.symm⟩
    · have hlast : d.place = -(rankLimit - 1 : ℕ) ∧ d.place - 1 = -(rankLimit : ℤ) := by
        rw [rankLimit] at hplace hnext ⊢
        omega
      rw [hlast.2, hlast.1, valueAt_neg, valueAt_neg]
      exact ⟨by linarith, fun heq => absurd heq (by linarith)⟩
  exact ⟨habove.1, hbelow.1, fun h => h.elim habove.2 hbelow.2⟩

theorem Between.roundsTo (hd : d.isFinite = true) (h : Between x d.place) : RoundsTo x d where
  isFinite := hd
  nearest e he := by
    have hbelow := h.below
    have habove := h.above
    rw [value_eq, value_eq]
    rcases lt_trichotomy d.place e.place with hlt | heq | hlt
    · have hle := valueAt_strictMono.monotone (Int.add_one_le_iff.mpr hlt)
      exact (abs_sub_le_abs_sub_iff (valueAt_strictMono hlt)).mpr (by linarith)
    · rw [heq]
    · have hle := valueAt_strictMono.monotone (Int.le_sub_one_iff.mpr hlt)
      exact (abs_sub_le_abs_sub_iff' (valueAt_strictMono hlt)).mpr (by linarith)
  even e he hne htie := by
    have hbelow := h.below
    have habove := h.above
    rw [abs_sub_eq_abs_sub_iff hne, value_eq, value_eq] at htie
    rw [mantissa_mod_two]
    rcases lt_trichotomy d.place e.place with hlt | heq | hlt
    · have hle := valueAt_strictMono.monotone (Int.add_one_le_iff.mpr hlt)
      exact h.even (.inr (by linarith))
    · exact absurd (by rw [value_eq, value_eq, heq]) hne
    · have hle := valueAt_strictMono.monotone (Int.le_sub_one_iff.mpr hlt)
      exact h.even (.inl (by linarith))
  inRange := by
    have hplace := natAbs_place_lt hd
    have hneg := h.neg.lt_limit (by rwa [Int.natAbs_neg])
    exact abs_lt.mpr ⟨by linarith, h.lt_limit hplace⟩

/-- The numbers that round to a double are those between its midpoints. -/
theorem roundsTo_iff (hd : d.isFinite = true) : RoundsTo x d ↔ Between x d.place :=
  ⟨RoundsTo.between, Between.roundsTo hd⟩

theorem RoundsTo.place_eq (hd : RoundsTo x d) (he : RoundsTo x e) : d.place = e.place :=
  hd.between.unique he.between

theorem RoundsTo.convex {z : ℚ} (hx : RoundsTo x d) (hz : RoundsTo z d) (hxy : x ≤ y)
    (hyz : y ≤ z) : RoundsTo y d :=
  (hx.between.convex hz.between hxy hyz).roundsTo hx.isFinite

/-- A double is the nearest to its own value. -/
theorem roundsTo_value (hd : d.isFinite = true) : RoundsTo d.value d := by
  have hbelow : valueAt (d.place - 1) < valueAt d.place := valueAt_strictMono (sub_one_lt _)
  have habove : valueAt d.place < valueAt (d.place + 1) := valueAt_strictMono (lt_add_one _)
  rw [roundsTo_iff hd, value_eq]
  refine ⟨by linarith, by linarith, fun h => ?_⟩
  rcases h with h | h <;> linarith

end Rounding

section ReadsBack

variable {d : Double}

theorem gapAt_pred_eq {r : ℕ} (hr : 0 < r) : 2 * gapAt (r - 1) =
    if r % 0x10000000000000 = 0 ∧ 1 < r / 0x10000000000000 then gapAt r else 2 * gapAt r := by
  obtain ⟨s, rfl⟩ : ∃ s, r = s + 1 := ⟨r - 1, by omega⟩
  rw [Nat.add_sub_cancel, gapAt, gapAt]
  split
  · rename_i h
    obtain ⟨e, he⟩ : ∃ e, s / 0x10000000000000 = e + 1 :=
      ⟨s / 0x10000000000000 - 1, by omega⟩
    have hnext : (s + 1) / 0x10000000000000 = e + 2 := by omega
    rw [he, hnext, Nat.add_sub_cancel, show e + 2 - 1 = e + 1 by omega,
      show Nat.pow 2 (e + 1) = Nat.pow 2 e * 2 from rfl]
    ring
  · rename_i h
    have hsame : s / 0x10000000000000 - 1 = (s + 1) / 0x10000000000000 - 1 := by omega
    rw [hsame]

theorem quadrupleBelow_eq (h : 0 < d.rank) : d.quadrupleBelow = 2 * gapAt (d.rank - 1) := by
  rw [quadrupleBelow, gapAt_pred_eq h, gap_eq, fraction_eq, exponentField_eq]

section Units

variable (a b n : ℕ)

theorem valueAt_add : valueAt a + valueAt b
    = (magnitudeAt a + magnitudeAt b : ℕ) / tenPow places := by
  rw [valueAt_natCast, valueAt_natCast, Nat.cast_add, add_div]

theorem two_mul_units : 2 * ((n : ℚ) / tenPow places) = (2 * n : ℕ) / tenPow places := by
  rw [Nat.cast_mul, mul_div_assoc, Nat.cast_ofNat]

theorem midpoint_le_iff : valueAt a + valueAt b ≤ 2 * (n / tenPow places)
    ↔ magnitudeAt a + magnitudeAt b ≤ 2 * n := by
  rw [valueAt_add, two_mul_units, div_le_div_iff_of_pos_right (tenPow_cast_pos places),
    Nat.cast_le]

theorem le_midpoint_iff : 2 * (n / tenPow places) ≤ valueAt a + valueAt b
    ↔ 2 * n ≤ magnitudeAt a + magnitudeAt b := by
  rw [valueAt_add, two_mul_units, div_le_div_iff_of_pos_right (tenPow_cast_pos places),
    Nat.cast_le]

end Units

theorem between_natCast_iff {s n : ℕ} : Between (n / tenPow places) (s + 1 : ℕ) ↔
    magnitudeAt s + magnitudeAt (s + 1) ≤ 2 * n
      ∧ 2 * n ≤ magnitudeAt (s + 1) + magnitudeAt (s + 2)
      ∧ (magnitudeAt s + magnitudeAt (s + 1) = 2 * n
        ∨ 2 * n = magnitudeAt (s + 1) + magnitudeAt (s + 2) → (s + 1) % 2 = 0) := by
  have hprev : ((s + 1 : ℕ) : ℤ) - 1 = s := by omega
  have hnext : ((s + 1 : ℕ) : ℤ) + 1 = (s + 2 : ℕ) := by omega
  have hparity : ((s + 1 : ℕ) : ℤ) % 2 = 0 ↔ (s + 1) % 2 = 0 := by omega
  rw [between_iff, hprev, hnext, hparity, le_antisymm_iff, le_antisymm_iff, midpoint_le_iff,
    midpoint_le_iff, le_midpoint_iff, le_midpoint_iff, ← le_antisymm_iff, ← le_antisymm_iff]

/-- Reading back compares with the midpoints. -/
theorem readsBack_iff_between (h : 0 < d.rank) (n : ℕ) :
    d.readsBack n = true ↔ Between (n / tenPow places) d.rank := by
  obtain ⟨s, hs⟩ : ∃ s, d.rank = s + 1 := ⟨d.rank - 1, by omega⟩
  have hquad : d.quadrupleBelow = 2 * gapAt s := by rw [quadrupleBelow_eq h, hs]; rfl
  have hmag : d.magnitude = magnitudeAt (s + 1) := by rw [magnitude_eq, hs]
  have hgap : d.gap = gapAt (s + 1) := by rw [gap_eq, hs]
  have hparity : d.mantissa % 2 = 0 ↔ (s + 1) % 2 = 0 := by
    have := d.natAbs_place
    rw [mantissa_mod_two]
    omega
  have hmid := magnitudeAt_succ s
  have hend := magnitudeAt_succ (s + 1)
  rw [hs, between_natCast_iff, hend, hmid]
  simp only [readsBack, hquad, hmag, hgap, hmid]
  split
  · simp only [Bool.and_eq_true, decide_eq_true_eq]
    omega
  · simp only [Bool.and_eq_true, decide_eq_true_eq]
    omega

/-- Reading back is rounding to the double. -/
theorem readsBack_iff (hd : d.isFinite = true) (h : 0 < d.rank) (n : ℕ) :
    d.readsBack n = true ↔ RoundsTo (d.sign * (n / tenPow places)) d := by
  rw [readsBack_iff_between h, roundsTo_iff hd, sign, place]
  split
  · rw [neg_one_mul]
    refine ⟨Between.neg, fun hb => ?_⟩
    have := hb.neg
    rwa [neg_neg, neg_neg] at this
  · rw [one_mul]

end ReadsBack

end PathFunctions.Double
