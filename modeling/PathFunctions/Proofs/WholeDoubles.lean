import PathFunctions.Proofs.ShortestDecimals
import PathFunctions.Scalar

/-!
# Whole doubles

A whole double below some cutoff is written as an integer, any other by its shortest decimal. Up to
`2 ^ 53` these are the same text (`toString_toInt64`), so no cutoff below can be told from another
(`textCutAt_eq`), and each integer up to there is a double and written like it
(`text_of_whole`).
-/

namespace PathFunctions.Double

variable {d : Double}

section Value

theorem isWhole_iff : d.isWhole = true ↔ tenPow places ∣ d.magnitude := by
  rw [isWhole, beq_iff_eq, Nat.dvd_iff_mod_eq_zero]

theorem abs_value (d : Double) : |d.value| = d.magnitude / tenPow places := by
  have hpos := tenPow_cast_pos places
  rw [value_eq_sign_mul, abs_mul, abs_sign, one_mul,
    abs_of_nonneg (div_nonneg (Nat.cast_nonneg _) hpos.le)]

theorem natAbs_whole (d : Double) : d.whole.natAbs = d.magnitude / tenPow places := by
  rw [whole]
  split
  · rw [Int.natAbs_neg, Int.natAbs_natCast]
  · rw [Int.natAbs_natCast]

theorem value_eq_whole (h : tenPow places ∣ d.magnitude) : d.value = d.whole := by
  have hquotient : (d.magnitude / tenPow places : ℚ) = (d.magnitude / tenPow places : ℕ) := by
    rw [div_eq_iff (tenPow_cast_pos places).ne', ← Nat.cast_mul, Nat.div_mul_cancel h]
  rw [value_eq_sign_mul, hquotient, sign, whole]
  split
  · rw [neg_one_mul, Int.cast_neg, Int.cast_natCast]
  · rw [one_mul, Int.cast_natCast]

theorem magnitude_eq_of_value_eq {n : ℤ} (h : d.value = n) :
    d.magnitude = n.natAbs * tenPow places := by
  have habs := d.abs_value
  rw [h, ← Int.cast_abs, Int.abs_eq_natAbs, Int.cast_natCast,
    eq_div_iff (tenPow_cast_pos places).ne', ← Nat.cast_mul, Nat.cast_inj] at habs
  exact habs.symm

theorem whole_eq_of_value_eq {n : ℤ} (h : d.value = n) : d.whole = n := by
  have hdvd : tenPow places ∣ d.magnitude := by
    rw [magnitude_eq_of_value_eq h]
    exact Nat.dvd_mul_left _ _
  rw [value_eq_whole hdvd, Int.cast_inj] at h
  exact h

theorem exists_int_iff : (∃ n : ℤ, d.value = n) ↔ tenPow places ∣ d.magnitude := by
  constructor
  · rintro ⟨n, hn⟩
    rw [magnitude_eq_of_value_eq hn]
    exact Nat.dvd_mul_left _ _
  · exact fun h => ⟨d.whole, value_eq_whole h⟩

theorem toInt_toInt64 (h : d.whole.natAbs ≤ 2 ^ 53) : d.toInt64.toInt = d.whole := by
  refine Int64.toInt_ofIntClamp ?_ ?_
  · rw [Int64.toInt_minValue]
    omega
  · rw [Int64.toInt_maxValue]
    omega

end Value

section Existence

/-- Each number of units but zero is above one rank and not above the next. -/
theorem exists_rank_lt {m : ℕ} (h : 0 < m) :
    ∃ r, magnitudeAt r < m ∧ m ≤ magnitudeAt (r + 1) := by
  have hbeyond : ∃ r, m ≤ magnitudeAt r := ⟨m, magnitudeAt_strictMono.le_apply⟩
  have hspec := Nat.find_spec hbeyond
  rcases hfirst : Nat.find hbeyond with _ | r
  · rw [hfirst, magnitudeAt_zero] at hspec
    omega
  · rw [hfirst] at hspec
    exact ⟨r, Nat.lt_of_not_le (Nat.find_min hbeyond (by omega)), hspec⟩

/-- All integers up to `2 ^ 53` are doubles. -/
theorem exists_magnitudeAt_eq {n : ℕ} (hn : 0 < n) (h : n ≤ 2 ^ 53) :
    ∃ r < rankLimit, magnitudeAt r = n * tenPow places := by
  obtain ⟨r, hbelow, habove⟩ := exists_rank_lt (Nat.mul_pos hn (tenPow_pos places))
  have hclose := exponent_le_places (hbelow.trans_le (Nat.mul_le_mul_right _ h))
  -- Both the integer and the double below are multiples of the gap.
  have hinteger : gapAt r ∣ n * tenPow places :=
    (gapAt_dvd (m := 0) (by rwa [Nat.zero_add])).trans
      (Nat.mul_dvd_mul_right (Nat.pow_zero 2 ▸ Nat.one_dvd n) _)
  have hdouble : gapAt r ∣ magnitudeAt r := Nat.dvd_mul_left _ _
  have hstep := Nat.le_of_dvd (Nat.sub_pos_of_lt hbelow) (Nat.dvd_sub hinteger hdouble)
  refine ⟨r + 1, ?_, ?_⟩
  · rw [rankLimit]
    simp only [places] at hclose
    omega
  · rw [magnitudeAt_succ] at habove ⊢
    omega

theorem exists_value_eq {n : ℤ} (h : n.natAbs ≤ 2 ^ 53) :
    ∃ d : Double, d.isFinite = true ∧ d.value = n := by
  rcases Nat.eq_zero_or_pos n.natAbs with hzero | hpos
  · obtain ⟨d, hd, hplace⟩ := exists_place (k := 0) (by decide)
    rw [Int.natAbs_eq_zero] at hzero
    exact ⟨d, hd, by rw [value_eq, hplace, valueAt_zero, hzero, Int.cast_zero]⟩
  obtain ⟨r, hr, hmagnitude⟩ := exists_magnitudeAt_eq hpos h
  have hvalue : valueAt r = n.natAbs := by
    rw [valueAt_natCast, hmagnitude, Nat.cast_mul,
      mul_div_cancel_right₀ _ (tenPow_cast_pos places).ne']
  rcases Int.natAbs_eq n with hn | hn
  · obtain ⟨d, hd, hplace⟩ := exists_place (k := r) hr
    refine ⟨d, hd, ?_⟩
    rw [value_eq, hplace, hvalue, hn, Int.natAbs_natCast, Int.cast_natCast]
  · obtain ⟨d, hd, hplace⟩ := exists_place (k := -(r : ℤ)) (by rwa [Int.natAbs_neg])
    refine ⟨d, hd, ?_⟩
    rw [value_eq, hplace, valueAt_neg, hvalue, hn, Int.natAbs_neg, Int.natAbs_natCast,
      Int.cast_neg, Int.cast_natCast]

end Existence

section Paths

/-- The text with another cutoff, below which whole doubles are written as integers. -/
def textCutAt (cutoff : ℕ) (d : Double) : String :=
  if d.isNaN then "NaN"
  else if !d.isFinite then if d.isNegative then "-Infinity" else "Infinity"
  else if d.isZero then "0"
  else if d.isWhole && d.whole.natAbs < cutoff then toString d.toInt64.toInt
  else d.plainText

theorem toString_whole (h : 0 < d.magnitude / tenPow places) : toString d.whole =
    if d.isNegative then "-" ++ toString (d.magnitude / tenPow places)
    else toString (d.magnitude / tenPow places) := by
  rw [whole]
  generalize d.magnitude / tenPow places = n at h
  rw [Int.toString_eq_repr, Int.repr_eq_if]
  split
  · rw [if_neg (by omega), Int.neg_neg, Int.toNat_natCast]
    rfl
  · rw [if_pos (by omega), Int.toNat_natCast]
    rfl

theorem quotient_pos (h : 0 < d.rank) (hdvd : tenPow places ∣ d.magnitude) :
    0 < d.magnitude / tenPow places :=
  Nat.div_pos (Nat.le_of_dvd (magnitude_pos h) hdvd) (tenPow_pos places)

/-- Up to `2 ^ 53` an integer is written as its shortest decimal is. -/
theorem toString_toInt64 (hd : d.isFinite = true) (h : 0 < d.rank)
    (hdvd : tenPow places ∣ d.magnitude) (hbound : d.whole.natAbs ≤ 2 ^ 53) :
    toString d.toInt64.toInt = d.plainText := by
  have hmagnitude : d.magnitude ≤ 2 ^ 53 * tenPow places := by
    rw [natAbs_whole] at hbound
    rw [← Nat.div_mul_cancel hdvd]
    exact Nat.mul_le_mul_right _ hbound
  rw [toInt_toInt64 hbound, toString_whole (quotient_pos h hdvd), plainText,
    shortest_of_whole hd h (exponentField_le hmagnitude) hdvd]
  rfl

/-- The texts of what is not a number and of what is beyond all of them. -/
def word (isNaN isNegative : Bool) : String :=
  if isNaN then "NaN" else if isNegative then "-Infinity" else "Infinity"

theorem textCutAt_of_not_isFinite (cutoff : ℕ) (h : d.isFinite = false) :
    d.textCutAt cutoff = word d.isNaN d.isNegative := by
  rw [textCutAt, h]
  rfl

theorem textCutAt_of_rank_eq_zero (cutoff : ℕ) (h : d.rank = 0) : d.textCutAt cutoff = "0" := by
  have hd : d.isFinite = true := by
    rw [isFinite_iff, h]
    decide
  rw [textCutAt, isNaN_eq_false hd, hd, if_neg (by decide), if_neg (by decide),
    if_pos ((isZero_iff d).mpr h)]

theorem textCutAt_of_rank_pos {cutoff : ℕ} (hcutoff : cutoff ≤ 2 ^ 53) (hd : d.isFinite = true)
    (h : 0 < d.rank) : d.textCutAt cutoff = d.plainText := by
  rw [textCutAt, isNaN_eq_false hd, hd, if_neg (by decide), if_neg (by decide),
    if_neg ((isZero_iff d).not.mpr (Nat.ne_of_gt h))]
  split
  · rename_i hwhole
    rw [Bool.and_eq_true, decide_eq_true_eq, isWhole_iff] at hwhole
    exact toString_toInt64 hd h hwhole.1 (hwhole.2.le.trans hcutoff)
  · rfl

/-- The cutoff does not show. -/
theorem textCutAt_eq {cutoff : ℕ} (hcutoff : cutoff ≤ 2 ^ 53) (d : Double) :
    d.textCutAt cutoff = d.textCutAt (tenPow 15) := by
  cases hd : d.isFinite
  · rw [textCutAt_of_not_isFinite _ hd, textCutAt_of_not_isFinite _ hd]
  · rcases Nat.eq_zero_or_pos d.rank with hzero | hpos
    · rw [textCutAt_of_rank_eq_zero _ hzero, textCutAt_of_rank_eq_zero _ hzero]
    · rw [textCutAt_of_rank_pos hcutoff hd hpos, textCutAt_of_rank_pos (by decide) hd hpos]

theorem text_eq_textCutAt (d : Double) : d.text = d.textCutAt (tenPow 15) := rfl

theorem text_eq_plainText (hd : d.isFinite = true) (h : 0 < d.rank) : d.text = d.plainText := by
  rw [text_eq_textCutAt, textCutAt_of_rank_pos (by decide) hd h]

theorem text_of_isZero (h : d.isZero = true) : d.text = "0" := by
  rw [text_eq_textCutAt, textCutAt_of_rank_eq_zero _ ((isZero_iff d).mp h)]

/-- A whole double is written as its shortest digits and zeros. -/
theorem exists_plainText_eq (hd : d.isFinite = true) (h : 0 < d.rank)
    (hdvd : tenPow places ∣ d.magnitude) : ∃ c z : ℕ, IsShortest d c z
      ∧ d.plainText = (if d.isNegative then "-" else "") ++ toString c
        ++ String.ofList (List.replicate z '0') := by
  obtain ⟨c, z, heq, -, hshortest⟩ := exists_shortest_of_dvd hd h hdvd
  have hpos : 0 < c := by
    refine Nat.pos_of_ne_zero fun hc => not_roundsTo_zero h ?_
    have hself := hshortest.roundsTo
    rwa [hc, Nat.cast_zero, zero_mul, mul_zero] at hself
  have htext : d.shortest.text = toString c ++ String.ofList (List.replicate z '0') := by
    rw [heq, Decimal.text, if_pos rfl, ← String.toList_inj, String.toList_append,
      String.toList_ofList]
    simp only [Nat.toString_eq_repr, Nat.toList_repr, PlainNumeral.toDigits_mul_tenPow hpos]
  refine ⟨c, z, hshortest, ?_⟩
  rw [plainText, htext]
  split
  · rw [String.append_assoc]
  · rw [String.empty_append]

end Paths

section Integers

theorem text_eq_of_value_eq (hd : d.isFinite = true) {n : Int64} (hn : n.toInt.natAbs ≤ 2 ^ 53)
    (hvalue : d.value = n.toInt) : (Scalar.double d).text = (Scalar.integer n).text := by
  have hwhole := whole_eq_of_value_eq hvalue
  have hdvd := exists_int_iff.mp ⟨_, hvalue⟩
  rcases Nat.eq_zero_or_pos d.rank with hzero | hpos
  · rw [value_eq_zero_iff.mpr hzero] at hvalue
    have hint : n.toInt = 0 := by exact_mod_cast hvalue.symm
    rw [Scalar.text, Scalar.text, text_of_isZero ((isZero_iff d).mpr hzero), hint]
    rfl
  · have hbound : d.whole.natAbs ≤ 2 ^ 53 := by rwa [hwhole]
    rw [Scalar.text, Scalar.text, text_eq_plainText hd hpos,
      ← toString_toInt64 hd hpos hdvd hbound, toInt_toInt64 hbound, hwhole]

/-- Integers up to `2 ^ 53` are written the same as doubles, and no cutoff up to there can be told
from another. Below `10 ^ 15` it is the integer itself that is written, and it is the shortest
decimal with zeros after its digits. -/
theorem text_of_whole :
    (∀ n : Int64, n.toInt.natAbs ≤ 2 ^ 53 →
      (∃ d : Double, d.isFinite = true ∧ d.value = n.toInt)
        ∧ ∀ d : Double, d.isFinite = true → d.value = n.toInt →
          (Scalar.double d).text = (Scalar.integer n).text)
    ∧ (∀ d : Double, d.isFinite = true → d.value ≠ 0 → (∃ n : ℤ, d.value = n) →
        |d.value| < 10 ^ 15 →
        (d.toInt64.toInt : ℚ) = d.value
          ∧ (Scalar.double d).text = (Scalar.integer d.toInt64).text
          ∧ (Scalar.integer d.toInt64).text = d.plainText
          ∧ ∃ c z : ℕ, IsShortest d c z
            ∧ d.plainText = (if d.isNegative then "-" else "") ++ toString c
              ++ String.ofList (List.replicate z '0'))
    ∧ ∀ cutoff ≤ 2 ^ 53, ∀ d : Double, d.textCutAt cutoff = d.text := by
  refine ⟨fun n hn => ⟨exists_value_eq hn, fun d hd => text_eq_of_value_eq hd hn⟩,
    fun d hd hne hint hlt => ?_, fun cutoff hcutoff => textCutAt_eq hcutoff⟩
  have hpos : 0 < d.rank := Nat.pos_of_ne_zero (value_eq_zero_iff.not.mp hne)
  have hdvd := exists_int_iff.mp hint
  have hvalue := value_eq_whole hdvd
  have hbound : d.whole.natAbs ≤ 2 ^ 53 := by
    rw [hvalue] at hlt
    have habs : |d.whole| < 10 ^ 15 := by exact_mod_cast hlt
    rw [Int.abs_eq_natAbs] at habs
    omega
  have hcast := toInt_toInt64 hbound
  have htext := toString_toInt64 hd hpos hdvd hbound
  exact ⟨by rw [hcast, hvalue], (text_eq_plainText hd hpos).trans htext.symm, htext,
    exists_plainText_eq hd hpos hdvd⟩

theorem text_of_whole_cutoff :
    ((-1000000000000000 : Int64).toInt.natAbs ≤ 2 ^ 53
      ∧ isFinite ⟨0xc30c6bf526340000⟩ = true
      ∧ value ⟨0xc30c6bf526340000⟩ = (-1000000000000000 : Int64).toInt
      ∧ (Scalar.double ⟨0xc30c6bf526340000⟩).text = (Scalar.integer (-1000000000000000)).text)
    ∧ (isFinite ⟨0x430c6bf52633fff8⟩ = true ∧ value ⟨0x430c6bf52633fff8⟩ ≠ 0
      ∧ value ⟨0x430c6bf52633fff8⟩ = (999999999999999 : ℤ)
      ∧ |value ⟨0x430c6bf52633fff8⟩| < 10 ^ 15
      ∧ ((toInt64 ⟨0x430c6bf52633fff8⟩).toInt : ℚ) = value ⟨0x430c6bf52633fff8⟩
      ∧ (Scalar.integer (toInt64 ⟨0x430c6bf52633fff8⟩)).text = plainText ⟨0x430c6bf52633fff8⟩)
    ∧ 10 ^ 15 - 1 ≤ 2 ^ 53
      ∧ textCutAt (10 ^ 15 - 1) ⟨0x430c6bf52633fff8⟩ = text ⟨0x430c6bf52633fff8⟩ := by
  have hinteger : value ⟨0xc30c6bf526340000⟩ = (-1000000000000000 : Int64).toInt := by
    have hnegative : isNegative ⟨0xc30c6bf526340000⟩ = true := by decide
    have hmantissa : mantissa ⟨0xc30c6bf526340000⟩ = 8000000000000000 := by decide
    have hexponent : exponentField ⟨0xc30c6bf526340000⟩ = 1072 := by decide
    have hint : (-1000000000000000 : Int64).toInt = -1000000000000000 := by decide
    rw [value, sign, hnegative, hmantissa, hexponent, hint]
    norm_num
  have hbelow : value ⟨0x430c6bf52633fff8⟩ = (999999999999999 : ℤ) := by
    have hnegative : isNegative ⟨0x430c6bf52633fff8⟩ = false := by decide
    have hmantissa : mantissa ⟨0x430c6bf52633fff8⟩ = 7999999999999992 := by decide
    have hexponent : exponentField ⟨0x430c6bf52633fff8⟩ = 1072 := by decide
    rw [value, sign, hnegative, hmantissa, hexponent]
    norm_num
  have hne : value ⟨0x430c6bf52633fff8⟩ ≠ 0 := by
    rw [hbelow]
    norm_num
  have hlt : |value ⟨0x430c6bf52633fff8⟩| < 10 ^ 15 := by
    rw [hbelow]
    norm_num
  obtain ⟨hintegers, hshortcut, hcutoff⟩ := text_of_whole
  have htext := (hintegers _ (by decide)).2 _ (by decide) hinteger
  obtain ⟨hcast, -, hplain, -⟩ := hshortcut _ (by decide) hne ⟨_, hbelow⟩ hlt
  exact ⟨⟨by decide, by decide, hinteger, htext⟩, ⟨by decide, hne, hbelow, hlt, hcast, hplain⟩,
    by decide, hcutoff _ (by decide) _⟩

end Integers

end PathFunctions.Double
