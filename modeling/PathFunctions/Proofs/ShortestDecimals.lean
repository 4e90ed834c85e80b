import Mathlib.Algebra.Order.Field.Power
import Mathlib.Data.Nat.Digits.Lemmas
import PathFunctions.Proofs.PlainNumerals
import PathFunctions.Proofs.Rounding

/-!
# The shortest decimals that round to a double

The search for the shortest decimal ends on the coarsest grid with a point that rounds to the double
(`exists_shortest`), so no decimal with fewer digits does (`isShortest_of_coarsest`). It is a whole
number exactly if the double is (`shortest_places_eq_zero_iff`). Whole numbers that round to a
double whose neighbours are not far apart are the double itself (`eq_magnitude_of_gap_dvd`), which
settles the shortest decimal of each whole double up to `2 ^ 54` (`shortest_of_whole`).
-/

namespace PathFunctions

namespace Double

variable {d : Double}

section Grids

theorem magnitude_pos (h : 0 < d.rank) : 0 < d.magnitude := by
  rw [magnitude_eq, ← magnitudeAt_zero]
  exact magnitudeAt_strictMono h

theorem readsBack_zero (h : 0 < d.rank) : d.readsBack 0 = false := by
  refine Bool.eq_false_iff.mpr fun hzero => ?_
  have habove := ((readsBack_iff_between h 0).mp hzero).above
  have hself : valueAt 0 < valueAt d.rank := valueAt_strictMono (by exact_mod_cast h)
  have hprev : valueAt 0 ≤ valueAt (d.rank - 1) := valueAt_strictMono.monotone (by omega)
  rw [valueAt_zero] at hself hprev
  rw [Nat.cast_zero, zero_div, mul_zero] at habove
  linarith

theorem not_roundsTo_zero (h : 0 < d.rank) : ¬ RoundsTo 0 d := by
  intro hzero
  have hunits : (0 : ℚ) = d.sign * ((0 : ℕ) / tenPow places) := by
    rw [Nat.cast_zero, zero_div, mul_zero]
  rw [hunits, ← readsBack_iff hzero.isFinite h, readsBack_zero h] at hzero
  cases hzero

theorem readsBack_convex {a b c : ℕ} (ha : d.readsBack a = true) (hc : d.readsBack c = true)
    (hab : a ≤ b) (hbc : b ≤ c) : d.readsBack b = true := by
  simp only [readsBack] at ha hc ⊢
  split at ha <;> rename_i hm <;>
    simp only [hm, if_true, if_false, Bool.and_eq_true, decide_eq_true_eq] at ha hc ⊢ <;> omega

/-- If any point of a grid reads back, one next to the double does. -/
theorem exists_nearestOn (h : 0 < d.rank) {k c : ℕ} (hc : d.readsBack (c * tenPow k) = true) :
    ∃ n, d.nearestOn k = some n := by
  have hself := readsBack_magnitude (magnitude_pos h)
  have hpos := tenPow_pos k
  have hbelow : d.magnitude / tenPow k * tenPow k ≤ d.magnitude := Nat.div_mul_le_self _ _
  have habove : d.magnitude < (d.magnitude / tenPow k + 1) * tenPow k :=
    Nat.lt_mul_of_div_lt (Nat.lt_succ_self _) hpos
  have hone : d.readsBack (d.magnitude / tenPow k * tenPow k) = true
      ∨ d.readsBack ((d.magnitude / tenPow k + 1) * tenPow k) = true := by
    rcases Nat.lt_or_ge (d.magnitude / tenPow k) c with hlt | hle
    · exact .inr (readsBack_convex hself hc habove.le (Nat.mul_le_mul_right _ hlt))
    · exact .inl (readsBack_convex hc hself (Nat.mul_le_mul_right _ hle) hbelow)
  simp only [nearestOn]
  split
  · exact ⟨_, rfl⟩
  · exact ⟨_, rfl⟩
  · exact ⟨_, rfl⟩
  · rename_i hfirst hsecond
    rw [hfirst, hsecond] at hone
    exact absurd hone (by decide)

/-- Of a grid that the double is on, the double itself is taken. -/
theorem nearestOn_of_dvd (h : 0 < d.rank) {k : ℕ} (hk : tenPow k ∣ d.magnitude) :
    d.nearestOn k = some (d.magnitude / tenPow k) := by
  have hself := readsBack_magnitude (magnitude_pos h)
  have hpos := tenPow_pos k
  simp only [nearestOn, Nat.div_mul_cancel hk, hself, Nat.mod_eq_zero_of_dvd hk]
  split
  · rw [if_pos (by omega)]
  · rfl
  · rename_i hfalse _
    cases hfalse
  · rename_i hfalse _
    cases hfalse

theorem coarsest_eq (h : 0 < d.rank) : ∀ n : ℕ, ∃ k c, d.coarsest n = pointOn k c
    ∧ d.nearestOn k = some c ∧ ∀ j, k < j → j ≤ n → d.nearestOn j = none
  | 0 => by
    have hnearest := nearestOn_of_dvd (k := 0) h (by rw [tenPow_zero]; exact one_dvd _)
    rw [tenPow_zero, Nat.div_one] at hnearest
    exact ⟨0, d.magnitude, rfl, hnearest, fun j _ _ => by omega⟩
  | n + 1 => by
    rw [coarsest]
    split
    · rename_i c hc
      exact ⟨n + 1, c, rfl, hc, fun j _ _ => by omega⟩
    · rename_i hnone
      obtain ⟨k, c, heq, hc, hcoarser⟩ := coarsest_eq h n
      refine ⟨k, c, heq, hc, fun j hlt hle => ?_⟩
      rcases Nat.lt_or_ge n j with hj | hj
      · rw [show j = n + 1 by omega, hnone]
      · exact hcoarser j hlt hj

theorem rangeEnd_le : rangeEnd ≤ tenPow 309 := by
  have hnat : 2 ^ 1024 ≤ tenPow 309 := by decide +kernel
  have hcast : (2 : ℚ) ^ 1024 ≤ tenPow 309 := by exact_mod_cast hnat
  have hpos : (0 : ℚ) ≤ 2 ^ 970 := by positivity
  exact (sub_le_self _ hpos).trans hcast

theorem abs_sign (d : Double) : |d.sign| = 1 := by
  rw [sign]
  split <;> simp

/-- What reads back is below `10 ^ 309`. -/
theorem lt_of_readsBack (hd : d.isFinite = true) (h : 0 < d.rank) {n : ℕ}
    (hn : d.readsBack n = true) : n < tenPow (places + 309) := by
  have hrange := ((readsBack_iff hd h n).mp hn).inRange.trans_le rangeEnd_le
  have hpos := tenPow_cast_pos places
  rw [abs_mul, abs_sign, one_mul, abs_of_nonneg (div_nonneg (Nat.cast_nonneg n) hpos.le),
    div_lt_iff₀ hpos] at hrange
  rwa [← Nat.cast_mul, Nat.cast_lt, ← tenPow_add, Nat.add_comm] at hrange

/-- The search ends on the coarsest grid of all with a point that reads back. -/
theorem exists_shortest (hd : d.isFinite = true) (h : 0 < d.rank) :
    ∃ k c, d.shortest = pointOn k c ∧ d.nearestOn k = some c
      ∧ ∀ j, k < j → ∀ n, d.readsBack (n * tenPow j) = false := by
  obtain ⟨k, c, heq, hc, hcoarser⟩ := coarsest_eq h (places + 309)
  refine ⟨k, c, heq, hc, fun j hj n => Bool.eq_false_iff.mpr fun hn => ?_⟩
  rcases Nat.eq_zero_or_pos n with rfl | hpos
  · rw [Nat.zero_mul, readsBack_zero h] at hn
    cases hn
  · -- Grids coarser than those of the search have no other point in range.
    have hbound := lt_of_readsBack hd h hn
    have hle : j ≤ places + 309 := by
      by_contra hlt
      have hpow := tenPow_mono (Nat.le_of_not_le hlt)
      exact absurd (hpow.trans (Nat.le_mul_of_pos_left _ hpos)) (Nat.not_le.mpr hbound)
    obtain ⟨m, hm⟩ := exists_nearestOn h hn
    rw [hcoarser j hj hle] at hm
    cases hm

end Grids

section Fewest

theorem zpow_units (k : ℕ) : (10 : ℚ) ^ ((k : ℤ) - places) = tenPow k / tenPow places := by
  rw [zpow_sub₀ (by norm_num), zpow_natCast, zpow_natCast]
  simp only [tenPow, Nat.pow_eq, Nat.cast_pow, Nat.cast_ofNat]

theorem mul_zpow_units (c k : ℕ) :
    c * (10 : ℚ) ^ ((k : ℤ) - places) = (c * tenPow k : ℕ) / tenPow places := by
  rw [zpow_units, Nat.cast_mul, mul_div_assoc]

theorem value_pointOn (k c : ℕ) :
    (pointOn k c).value = c * (10 : ℚ) ^ ((k : ℤ) - places) := by
  rw [mul_zpow_units, pointOn, Decimal.value]
  rcases Nat.le_total k places with hle | hle
  · obtain ⟨m, hm⟩ := Nat.exists_eq_add_of_le hle
    rw [hm, Nat.sub_eq_zero_of_le (Nat.le_add_right k m), Nat.add_sub_cancel_left, tenPow_add,
      tenPow_zero, Nat.mul_one, Nat.mul_comm (tenPow k), Nat.cast_mul, Nat.cast_mul,
      mul_div_mul_right _ _ (tenPow_cast_pos k).ne']
  · obtain ⟨m, hm⟩ := Nat.exists_eq_add_of_le hle
    rw [hm, Nat.sub_eq_zero_of_le (Nat.le_add_right places m), Nat.add_sub_cancel_left,
      tenPow_add, tenPow_zero, Nat.cast_one, div_one, Nat.mul_left_comm,
      Nat.cast_mul (tenPow places), mul_div_cancel_left₀ _ (tenPow_cast_pos places).ne']

/-- `c * 10 ^ j` rounds to `d` up to the sign, and nothing with fewer digits does. -/
structure IsShortest (d : Double) (c : ℕ) (j : ℤ) : Prop where
  roundsTo : RoundsTo (d.sign * (c * 10 ^ j)) d
  length_le : ∀ (b : ℕ) (i : ℤ), RoundsTo (d.sign * (b * 10 ^ i)) d →
    (Nat.digits 10 c).length ≤ (Nat.digits 10 b).length

theorem RoundsTo.convex_sign {x y z : ℚ} (hx : RoundsTo (d.sign * x) d)
    (hz : RoundsTo (d.sign * z) d) (hxy : x ≤ y) (hyz : y ≤ z) : RoundsTo (d.sign * y) d := by
  simp only [sign] at hx hz ⊢
  split at hx
  · rename_i hs
    rw [if_pos hs] at hz ⊢
    exact hz.convex hx (by linarith) (by linarith)
  · rename_i hs
    rw [if_neg hs] at hz ⊢
    exact hx.convex hz (by linarith) (by linarith)

theorem isShortest_of_coarsest (hd : d.isFinite = true) (h : 0 < d.rank) {k c : ℕ}
    (hc : d.readsBack (c * tenPow k) = true)
    (hcoarser : ∀ j, k < j → ∀ n, d.readsBack (n * tenPow j) = false) :
    IsShortest d c (k - places) := by
  have hself : RoundsTo (d.sign * (c * 10 ^ ((k : ℤ) - places))) d := by
    rw [mul_zpow_units]
    exact (readsBack_iff hd h _).mp hc
  have hgrid : ∀ {n j : ℕ}, k < j → ¬ RoundsTo (d.sign * (n * 10 ^ ((j : ℤ) - places))) d := by
    intro n j hj hn
    rw [mul_zpow_units, ← readsBack_iff hd h, hcoarser j hj n] at hn
    cases hn
  refine ⟨hself, fun b i hb => ?_⟩
  by_contra hlt
  rcases lt_or_ge ((k : ℤ) - places) i with hi | hi
  · obtain ⟨j, rfl⟩ : ∃ j : ℕ, i = j - places := ⟨(i + places).toNat, by omega⟩
    exact hgrid (by omega) hb
  · -- A power of ten lies between the two, on a coarser grid.
    have hbpos : b ≠ 0 := by
      rintro rfl
      rw [Nat.cast_zero, zero_mul, mul_zero] at hb
      exact not_roundsTo_zero h hb
    have hlength : 0 < (Nat.digits 10 b).length :=
      List.length_pos_iff.mpr (Nat.digits_ne_nil_iff_ne_zero.mpr hbpos)
    obtain ⟨m, hm⟩ : ∃ m, (Nat.digits 10 c).length = m + 1 :=
      ⟨(Nat.digits 10 c).length - 1, by omega⟩
    have hbm : b ≤ 10 ^ m :=
      (Nat.lt_base_pow_length_digits (by decide)).le.trans
        (Nat.pow_le_pow_right (by decide) (by omega))
    have hmc : 10 ^ m ≤ c := (Nat.lt_digits_length_iff (by decide) c).mp (by omega)
    have hpow : (0 : ℚ) < 10 ^ ((k : ℤ) - places) := by positivity
    have hlow : b * (10 : ℚ) ^ i ≤ 10 ^ m * 10 ^ ((k : ℤ) - places) := by
      refine mul_le_mul (by exact_mod_cast hbm) (zpow_le_zpow_right₀ (by norm_num) hi)
        (by positivity) (by positivity)
    have hhigh : (10 : ℚ) ^ m * 10 ^ ((k : ℤ) - places) ≤ c * 10 ^ ((k : ℤ) - places) :=
      mul_le_mul_of_nonneg_right (by exact_mod_cast hmc) hpow.le
    have hbetween := hb.convex_sign hself hlow hhigh
    refine hgrid (n := 1) (j := m + k) (by omega) ?_
    rw [Nat.cast_one, one_mul, Nat.cast_add, add_sub_assoc, zpow_add₀ (by norm_num), zpow_natCast]
    exact hbetween

theorem exists_isShortest (hd : d.isFinite = true) (h : 0 < d.rank) :
    ∃ k c, d.shortest = pointOn k c ∧ IsShortest d c (k - places) := by
  obtain ⟨k, c, heq, hc, hcoarser⟩ := exists_shortest hd h
  exact ⟨k, c, heq, isShortest_of_coarsest hd h (readsBack_of_nearestOn hc) hcoarser⟩

end Fewest

section Whole

theorem two_pow_mul_tenPow (m k : ℕ) :
    2 ^ m * tenPow k = Nat.pow 2 (m + k) * Nat.pow 5 k := by
  rw [show tenPow k = 2 ^ k * 5 ^ k from Nat.mul_pow 2 5 k, ← Nat.mul_assoc, ← Nat.pow_add]
  rfl

theorem pow_mul_pow_dvd {a b : ℕ} (k : ℕ) (h : a ≤ b) :
    Nat.pow 2 a * Nat.pow 5 k ∣ Nat.pow 2 b * Nat.pow 5 k :=
  Nat.mul_dvd_mul_right (Nat.pow_dvd_pow 2 h) _

theorem gapAt_dvd {r m : ℕ} (h : r / 0x10000000000000 - 1 ≤ m + places) :
    gapAt r ∣ 2 ^ m * tenPow places := by
  rw [two_pow_mul_tenPow]
  exact pow_mul_pow_dvd places h

theorem dvd_gapAt {r m : ℕ} (h : m + places ≤ r / 0x10000000000000 - 1) :
    2 ^ m * tenPow places ∣ gapAt r := by
  rw [two_pow_mul_tenPow]
  exact pow_mul_pow_dvd places h

theorem gap_dvd {m : ℕ} (h : d.exponentField - 1 ≤ m + places) :
    d.gap ∣ 2 ^ m * tenPow places := by
  rw [exponentField_eq] at h
  rw [gap_eq]
  exact gapAt_dvd h

theorem dvd_gap {m : ℕ} (h : m + places ≤ d.exponentField - 1) :
    2 ^ m * tenPow places ∣ d.gap := by
  rw [exponentField_eq] at h
  rw [gap_eq]
  exact dvd_gapAt h

/-- Between a double and its neighbours there is no other multiple of the gap. -/
theorem eq_magnitude_of_gap_dvd {n : ℕ} (hg : d.gap ∣ n) (hn : d.readsBack n = true) :
    n = d.magnitude := by
  obtain ⟨a, rfl⟩ := hg
  have hpos := d.gap_pos
  have hquad : d.quadrupleBelow ≤ 2 * d.gap := by
    rw [quadrupleBelow]
    split <;> omega
  have hbounds : 4 * d.magnitude ≤ 4 * (d.gap * a) + 2 * d.gap
      ∧ 4 * (d.gap * a) ≤ 4 * d.magnitude + 2 * d.gap := by
    simp only [readsBack] at hn
    split at hn <;> simp only [Bool.and_eq_true, decide_eq_true_eq] at hn <;> omega
  rw [magnitude, Nat.mul_comm d.mantissa] at hbounds ⊢
  rcases Nat.lt_trichotomy a d.mantissa with hlt | rfl | hlt
  · have := Nat.mul_le_mul_left d.gap hlt
    rw [Nat.mul_succ] at this
    omega
  · rfl
  · have := Nat.mul_le_mul_left d.gap hlt
    rw [Nat.mul_succ] at this
    omega

theorem shortest_places_eq_zero_iff (hd : d.isFinite = true) (h : 0 < d.rank) :
    d.shortest.places = 0 ↔ tenPow places ∣ d.magnitude := by
  obtain ⟨k, c, heq, hc, hcoarser⟩ := exists_shortest hd h
  have hk : d.shortest.places = 0 ↔ places ≤ k := by
    rw [heq]
    exact Nat.sub_eq_zero_iff_le
  rw [hk]
  constructor
  · intro hle
    rcases Nat.le_total (0 + places) (d.exponentField - 1) with hexp | hexp
    · have hgap := (Nat.dvd_mul_left _ _).trans (dvd_gap (m := 0) hexp)
      exact Nat.dvd_mul_left_of_dvd hgap _
    · have hunit : 2 ^ 0 * tenPow places ∣ c * tenPow k :=
        Nat.mul_dvd_mul (by simp) (tenPow_dvd hle)
      have hmag := eq_magnitude_of_gap_dvd ((gap_dvd hexp).trans hunit)
        (readsBack_of_nearestOn hc)
      exact hmag ▸ Nat.dvd_mul_left_of_dvd (tenPow_dvd hle) c
  · intro hdvd
    by_contra hlt
    have hself := readsBack_magnitude (magnitude_pos h)
    rw [← Nat.div_mul_cancel hdvd, hcoarser places (Nat.lt_of_not_le hlt)] at hself
    cases hself

/-- The shortest decimal of a whole double is some digits and zeros. -/
theorem exists_shortest_of_dvd (hd : d.isFinite = true) (h : 0 < d.rank)
    (hdvd : tenPow places ∣ d.magnitude) : ∃ c z : ℕ, d.shortest = ⟨c * tenPow z, 0⟩
      ∧ d.nearestOn (places + z) = some c ∧ IsShortest d c z := by
  obtain ⟨k, c, heq, hc, hcoarser⟩ := exists_shortest hd h
  have hle : places ≤ k := by
    have hzero := (shortest_places_eq_zero_iff hd h).mpr hdvd
    rw [heq] at hzero
    exact Nat.sub_eq_zero_iff_le.mp hzero
  obtain ⟨z, rfl⟩ := Nat.exists_eq_add_of_le hle
  have hshortest := isShortest_of_coarsest hd h (readsBack_of_nearestOn hc) hcoarser
  rw [Nat.cast_add, add_sub_cancel_left] at hshortest
  refine ⟨c, z, ?_, hc, hshortest⟩
  rw [heq, pointOn, Nat.add_sub_cancel_left, Nat.sub_eq_zero_of_le (Nat.le_add_right places z)]

/-- The digits of a whole double up to `2 ^ 54` are its own. -/
theorem shortest_of_whole (hd : d.isFinite = true) (h : 0 < d.rank)
    (hexp : d.exponentField - 1 ≤ 1 + places) (hdvd : tenPow places ∣ d.magnitude) :
    d.shortest = ⟨d.magnitude / tenPow places, 0⟩ := by
  obtain ⟨c, z, heq, hc, -⟩ := exists_shortest_of_dvd hd h hdvd
  have hmag : c * tenPow (places + z) = d.magnitude := by
    rcases z with _ | z
    · rw [Nat.add_zero, nearestOn_of_dvd h hdvd] at hc
      rw [Nat.add_zero, ← Option.some.inj hc, Nat.div_mul_cancel hdvd]
    · -- On a coarser grid all points are even.
      have hten : 2 ^ 1 ∣ tenPow (z + 1) :=
        Nat.dvd_trans (by decide) (tenPow_dvd (Nat.le_add_left 1 z))
      have heven : 2 ^ 1 * tenPow places ∣ c * tenPow (places + (z + 1)) := by
        rw [tenPow_add, Nat.mul_comm (tenPow places)]
        exact Nat.dvd_mul_left_of_dvd (Nat.mul_dvd_mul_right hten _) _
      exact eq_magnitude_of_gap_dvd ((gap_dvd hexp).trans heven) (readsBack_of_nearestOn hc)
  rw [heq, ← hmag, tenPow_add, Nat.mul_left_comm, Nat.mul_div_cancel_left _ (tenPow_pos places)]

/-- Doubles that are some way apart are far from zero. -/
theorem exponent_lt {r m : ℕ} (h : magnitudeAt r < 2 ^ 52 * (2 ^ m * tenPow places)) :
    r / 0x10000000000000 - 1 < m + places := by
  by_contra hfar
  rw [Nat.not_lt] at hfar
  have hplaces : 0 < places := by decide
  have hgap := Nat.le_of_dvd (gapAt_pos r) (dvd_gapAt hfar)
  rw [magnitudeAt, if_neg (by omega)] at h
  exact absurd (Nat.mul_le_mul (Nat.le_add_left _ _) hgap) (Nat.not_le.mpr h)

/-- Below `2 ^ 53`, neighbours are at most one apart. -/
theorem exponent_le_places {r : ℕ} (h : magnitudeAt r < 2 ^ 53 * tenPow places) :
    r / 0x10000000000000 - 1 ≤ places := by
  have hsplit (unit : ℕ) : 2 ^ 53 * unit = 2 ^ 52 * (2 ^ 1 * unit) := by omega
  rw [hsplit] at h
  have hlt := exponent_lt h
  rw [Nat.add_comm] at hlt
  exact Nat.le_of_lt_succ hlt

/-- Up to `2 ^ 53`, they are at most two apart. -/
theorem exponentField_le (h : d.magnitude ≤ 2 ^ 53 * tenPow places) :
    d.exponentField - 1 ≤ 1 + places := by
  have hbeyond (unit : ℕ) (hpos : 0 < unit) : 2 ^ 53 * unit < 2 ^ 52 * (2 ^ 2 * unit) := by omega
  rw [magnitude_eq] at h
  have hlt := exponent_lt (h.trans_lt (hbeyond _ (tenPow_pos places)))
  rw [exponentField_eq]
  rw [Nat.add_comm] at hlt ⊢
  exact Nat.le_of_lt_succ hlt

end Whole

end Double

end PathFunctions
