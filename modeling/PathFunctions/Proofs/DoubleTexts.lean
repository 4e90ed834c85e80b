import PathFunctions.Proofs.WholeDoubles

/-!
# The texts of doubles

The text of each finite double is a plain numeral that rounds to it (`exists_numeral`), with a point
only if the double is not whole. A numeral rounds to one double at most and the other texts have no
digits, so the text settles the double up to the bits of NaN and the sign of zero
(`text_identifies`).
-/

namespace PathFunctions.Double

variable {d e : Double}

section Numerals

theorem shortest_reduced (hd : d.isFinite = true) (h : 0 < d.rank) : d.shortest.Reduced := by
  obtain ⟨k, c, heq, hc, hcoarser⟩ := exists_shortest hd h
  rw [heq, Decimal.Reduced, pointOn]
  rcases Nat.lt_or_ge k places with hlt | hle
  · refine .inr fun hzero => ?_
    -- A point with a last zero is on the next coarser grid.
    rw [Nat.sub_eq_zero_of_le hlt.le, tenPow_zero, Nat.mul_one] at hzero
    have hself := readsBack_of_nearestOn hc
    have hten : c * tenPow k = c / 10 * tenPow (k + 1) := by
      rw [Nat.add_comm, tenPow_add, ← Nat.mul_assoc]
      exact congrArg (· * _) (Nat.div_mul_cancel (Nat.dvd_of_mod_eq_zero hzero)).symm
    rw [hten, hcoarser (k + 1) (Nat.lt_succ_self k)] at hself
    cases hself
  · exact .inl (Nat.sub_eq_zero_of_le hle)

theorem roundsTo_shortest (hd : d.isFinite = true) (h : 0 < d.rank) :
    RoundsTo (d.sign * d.shortest.value) d := by
  obtain ⟨k, c, heq, hshortest⟩ := exists_isShortest hd h
  rw [heq, value_pointOn]
  exact hshortest.roundsTo

/-- The numeral of a finite double that is not zero. -/
def numeral (d : Double) (hd : d.isFinite = true) (h : 0 < d.rank) : PlainNumeral :=
  .ofDecimal d.shortest d.isNegative (shortest_reduced hd h)

theorem text_numeral (hd : d.isFinite = true) (h : 0 < d.rank) :
    (d.numeral hd h).text = d.text := by
  rw [numeral, PlainNumeral.text_ofDecimal, text_eq_plainText hd h, plainText]

theorem roundsTo_numeral (hd : d.isFinite = true) (h : 0 < d.rank) :
    RoundsTo (d.numeral hd h).value d := by
  rw [numeral, PlainNumeral.value_ofDecimal]
  exact roundsTo_shortest hd h

theorem fraction_numeral (hd : d.isFinite = true) (h : 0 < d.rank) :
    (d.numeral hd h).fraction = [] ↔ ∃ n : ℤ, d.value = n := by
  rw [numeral, PlainNumeral.fraction_ofDecimal, shortest_places_eq_zero_iff hd h, exists_int_iff]

theorem exists_numeral (hd : d.isFinite = true) :
    ∃ numeral : PlainNumeral, d.text = numeral.text ∧ RoundsTo numeral.value d := by
  rcases Nat.eq_zero_or_pos d.rank with hzero | hpos
  · have hreduced : Decimal.Reduced ⟨0, 0⟩ := .inl rfl
    refine ⟨.ofDecimal ⟨0, 0⟩ false hreduced, ?_, ?_⟩
    · rw [PlainNumeral.text_ofDecimal, text_of_isZero ((isZero_iff d).mpr hzero)]
      rfl
    · have hself := roundsTo_value hd
      rw [value_eq_zero_iff.mpr hzero] at hself
      rwa [PlainNumeral.value_ofDecimal, Decimal.value, Nat.cast_zero, zero_div, mul_zero]
  · exact ⟨d.numeral hd hpos, (text_numeral hd hpos).symm, roundsTo_numeral hd hpos⟩

example : text ⟨0x3fb999999999999a⟩ = "0.1" := by decide +kernel

end Numerals

section Identity

theorem eq_of_roundsTo {x : ℚ} (hd : RoundsTo x d) (he : RoundsTo x e) (h : 0 < d.rank) :
    d = e :=
  eq_of_place_eq (hd.place_eq he) (Nat.ne_of_gt h)

theorem text_of_isNaN (h : d.isNaN = true) : d.text = "NaN" := by
  rw [text, if_pos h]

theorem isDigit_word : ∀ isNaN isNegative : Bool,
    ∀ c ∈ (word isNaN isNegative).toList, c.isDigit = false
  | true, _ => by simp [word]
  | false, true => by simp [word]
  | false, false => by simp [word]

theorem eq_of_word_eq : ∀ isNaN isNegative isNaN' isNegative' : Bool,
    word isNaN isNegative = word isNaN' isNegative' →
      isNaN = isNaN' ∧ (isNaN = true ∨ isNegative = isNegative') := by
  decide

theorem text_of_not_isFinite (h : d.isFinite = false) :
    d.text = word d.isNaN d.isNegative := by
  rw [text_eq_textCutAt, textCutAt_of_not_isFinite _ h]

/-- Only the texts of finite doubles have digits. -/
theorem exists_isDigit_text_iff :
    (∃ c ∈ d.text.toList, c.isDigit = true) ↔ d.isFinite = true := by
  constructor
  · rintro ⟨c, hc, hdigit⟩
    by_contra hinfinite
    rw [text_of_not_isFinite (Bool.eq_false_iff.mpr hinfinite)] at hc
    rw [isDigit_word _ _ c hc] at hdigit
    cases hdigit
  · intro hd
    obtain ⟨numeral, htext, -⟩ := exists_numeral hd
    rw [htext]
    exact numeral.exists_isDigit

theorem rank_of_infinite (h : d.isFinite = false) (hnan : d.isNaN = false) :
    d.rank = rankLimit := by
  rw [isNaN, h, Bool.not_false, Bool.true_and, bne_eq_false_iff_eq, fraction_eq] at hnan
  rw [Bool.eq_false_iff, ne_eq, isFinite_iff] at h
  rw [rankLimit] at h ⊢
  have hrank : d.rank < 0x8000000000000000 := Nat.mod_lt _ (by decide)
  omega

theorem eq_of_text_eq (h : d.text = e.text) :
    d = e ∨ d.isNaN = true ∧ e.isNaN = true ∨ d.isZero = true ∧ e.isZero = true := by
  have hfinite : d.isFinite = e.isFinite := by
    rw [Bool.eq_iff_iff, ← exists_isDigit_text_iff, ← exists_isDigit_text_iff, h]
  cases hd : d.isFinite
  · have he : e.isFinite = false := hfinite ▸ hd
    rw [text_of_not_isFinite hd, text_of_not_isFinite he] at h
    obtain ⟨hnan, hsign⟩ := eq_of_word_eq _ _ _ _ h
    cases hdn : d.isNaN
    · refine .inl (eq_of_rank_eq (hsign.resolve_left (by rw [hdn]; decide)) ?_)
      rw [rank_of_infinite hd hdn, rank_of_infinite he (hnan ▸ hdn)]
    · exact .inr (.inl ⟨rfl, hnan ▸ hdn⟩)
  · obtain ⟨n, hn, hdn⟩ := exists_numeral hd
    obtain ⟨m, hm, hem⟩ := exists_numeral (hfinite ▸ hd : e.isFinite = true)
    obtain rfl : n = m := PlainNumeral.text_injective (by rw [← hn, ← hm, h])
    rcases Nat.eq_zero_or_pos d.rank with hzero | hpos
    · have hrank : e.rank = 0 := by
        rw [← natAbs_place, ← hdn.place_eq hem, natAbs_place, hzero]
      exact .inr (.inr ⟨(isZero_iff d).mpr hzero, (isZero_iff e).mpr hrank⟩)
    · exact .inl (eq_of_roundsTo hdn hem hpos)

/-- The text of a finite double is a plain numeral that rounds to that double only, and no two
doubles share their text but NaN and the zeros. -/
theorem text_identifies :
    (∀ d : Double, d.isFinite = true → d.value ≠ 0 → ∃ numeral : PlainNumeral,
      (Scalar.double d).text = numeral.text
        ∧ (numeral.isNegative = true ↔ d.value < 0)
        ∧ (numeral.fraction = [] ↔ ∃ n : ℤ, d.value = n)
        ∧ ∀ e : Double, RoundsTo numeral.value e ↔ e = d)
    ∧ (∀ d : Double, d.isNaN = true → (Scalar.double d).text = "NaN")
    ∧ (∀ d : Double, d.isZero = true → (Scalar.double d).text = "0")
    ∧ ∀ d e : Double, (Scalar.double d).text = (Scalar.double e).text ↔
      d = e ∨ d.isNaN = true ∧ e.isNaN = true ∨ d.isZero = true ∧ e.isZero = true := by
  refine ⟨fun d hd hne => ?_, fun d => text_of_isNaN, fun d => text_of_isZero, fun d e => ?_⟩
  · have hrank := value_eq_zero_iff.not.mp hne
    have hpos := Nat.pos_of_ne_zero hrank
    have hrounds := roundsTo_numeral hd hpos
    refine ⟨d.numeral hd hpos, (text_numeral hd hpos).symm, (value_neg_iff hrank).symm,
      fraction_numeral hd hpos, fun e => ⟨fun he => (eq_of_roundsTo hrounds he hpos).symm, ?_⟩⟩
    rintro rfl
    exact hrounds
  · refine ⟨eq_of_text_eq, ?_⟩
    rintro (rfl | ⟨hd, he⟩ | ⟨hd, he⟩)
    · rfl
    · rw [Scalar.text, Scalar.text, text_of_isNaN hd, text_of_isNaN he]
    · rw [Scalar.text, Scalar.text, text_of_isZero hd, text_of_isZero he]

/-- The double below zero that is nearest to it. -/
theorem text_identifies_smallest :
    isFinite ⟨0x8000000000000001⟩ = true ∧ value ⟨0x8000000000000001⟩ ≠ 0
      ∧ ∃ numeral : PlainNumeral,
        (Scalar.double ⟨0x8000000000000001⟩).text = numeral.text
          ∧ (numeral.isNegative = true ↔ value ⟨0x8000000000000001⟩ < 0)
          ∧ (numeral.fraction = [] ↔ ∃ n : ℤ, value ⟨0x8000000000000001⟩ = n)
          ∧ ∀ e : Double, RoundsTo numeral.value e ↔ e = ⟨0x8000000000000001⟩ := by
  have hfinite : isFinite ⟨0x8000000000000001⟩ = true := by decide
  have hne : value ⟨0x8000000000000001⟩ ≠ 0 := value_eq_zero_iff.not.mpr (by decide)
  exact ⟨hfinite, hne, text_identifies.1 _ hfinite hne⟩

end Identity

end PathFunctions.Double
