import Mathlib.Algebra.Order.Ring.Rat
import Mathlib.Tactic.FieldSimp
import Mathlib.Tactic.Ring
import PathFunctions.Decimal
import PathFunctions.Proofs.Grammar

/-!
# Plain numerals

A plain numeral is a number without an exponent and without any digit it could lose: a minus sign
or none, a whole part with no zero in front, and a point only where digits follow that do not end in
zero. Its text settles its parts (`PlainNumeral.text_injective`). The text of a decimal whose last
place is not zero is a plain numeral of the same value (`PlainNumeral.text_ofDecimal`,
`PlainNumeral.value_ofDecimal`).
-/

namespace PathFunctions

/-- The number that a decimal stands for. -/
def Decimal.value (x : Decimal) : ℚ := x.digits / tenPow x.places

/-- The last decimal place, if there is one, is not zero. -/
def Decimal.Reduced (x : Decimal) : Prop := x.places = 0 ∨ x.digits % 10 ≠ 0

structure PlainNumeral where
  isNegative : Bool
  whole : List Char
  fraction : List Char
  whole_ne_nil : whole ≠ []
  isDigit_whole : ∀ c ∈ whole, c.isDigit
  whole_eq_zero : whole.head? = some '0' → whole = ['0']
  isDigit_fraction : ∀ c ∈ fraction, c.isDigit
  fraction_not_zero : fraction.getLast? ≠ some '0'

namespace PlainNumeral

/-- The digits after the point, with the point if there are any. -/
def pointed (fraction : List Char) : List Char := if fraction = [] then [] else '.' :: fraction

def text (numeral : PlainNumeral) : String :=
  String.ofList (Template.sign numeral.isNegative ++ (numeral.whole ++ pointed numeral.fraction))

def value (numeral : PlainNumeral) : ℚ :=
  (if numeral.isNegative then -1 else 1) * (Nat.ofDigitChars 10 numeral.whole 0
    + Nat.ofDigitChars 10 numeral.fraction 0 / tenPow numeral.fraction.length)

section Parts

theorem ext {n m : PlainNumeral} (hs : n.isNegative = m.isNegative) (hw : n.whole = m.whole)
    (hf : n.fraction = m.fraction) : n = m := by
  cases n
  cases m
  cases hs
  cases hw
  cases hf
  rfl

theorem takeWhile_pointed (fraction : List Char) :
    (pointed fraction).takeWhile Char.isDigit = [] := by
  rw [pointed]
  split <;> rfl

theorem pointed_injective {a b : List Char} (h : pointed a = pointed b) : a = b := by
  simp only [pointed] at h
  split at h <;> split at h
  · simp_all
  · cases h
  · cases h
  · exact List.tail_eq_of_cons_eq h

theorem head?_whole_append (numeral : PlainNumeral) (rest : List Char) :
    (numeral.whole ++ rest).head? ≠ some '-' := by
  obtain ⟨c, cs, hw⟩ := List.exists_cons_of_ne_nil numeral.whole_ne_nil
  rw [hw, List.cons_append, List.head?_cons]
  intro h
  have hdigit := numeral.isDigit_whole c (by rw [hw]; exact List.mem_cons_self)
  rw [Option.some.inj h] at hdigit
  exact absurd hdigit (by decide)

theorem exists_isDigit (numeral : PlainNumeral) :
    ∃ c ∈ numeral.text.toList, c.isDigit = true := by
  obtain ⟨c, hc⟩ := List.exists_mem_of_ne_nil _ numeral.whole_ne_nil
  refine ⟨c, ?_, numeral.isDigit_whole c hc⟩
  rw [text, String.toList_ofList]
  exact List.mem_append_right _ (List.mem_append_left _ hc)

theorem isNegative_iff (numeral : PlainNumeral) :
    numeral.isNegative = true ↔ numeral.text.toList.head? = some '-' := by
  rw [text, String.toList_ofList]
  cases hs : numeral.isNegative
  · exact iff_of_false (by decide) (numeral.head?_whole_append _)
  · exact iff_of_true rfl rfl

theorem text_injective {n m : PlainNumeral} (h : n.text = m.text) : n = m := by
  have hsign : n.isNegative = m.isNegative := by
    rw [Bool.eq_iff_iff, isNegative_iff, isNegative_iff, h]
  have hrest := congrArg String.toList h
  rw [text, text, String.toList_ofList, String.toList_ofList, hsign, List.append_cancel_left_eq]
    at hrest
  obtain ⟨hwhole, hpointed⟩ := Template.append_inj_of_stop n.isDigit_whole m.isDigit_whole
    (takeWhile_pointed _) (takeWhile_pointed _) hrest
  exact ext hsign hwhole (pointed_injective hpointed)

end Parts

section Digits

theorem toDigits_eq_append {n : ℕ} (h : 10 ≤ n) :
    Nat.toDigits 10 n = Nat.toDigits 10 (n / 10) ++ [Nat.digitChar (n % 10)] :=
  Nat.toDigits_of_base_le (by decide) h

theorem isDigit_toDigits (n : ℕ) : ∀ c ∈ Nat.toDigits 10 n, c.isDigit :=
  fun _ => Nat.isDigit_of_mem_toDigits (by decide) (by decide)

theorem eq_zero_of_head?_toDigits (n : ℕ) (h : (Nat.toDigits 10 n).head? = some '0') : n = 0 := by
  rcases Nat.lt_or_ge n 10 with hlt | hle
  · rw [Nat.toDigits_of_lt_base hlt, List.head?_cons] at h
    exact Nat.digitChar_eq_zero.mp (Option.some.inj h)
  · rw [toDigits_eq_append hle, List.head?_append_of_ne_nil _ Nat.toDigits_ne_nil] at h
    have := eq_zero_of_head?_toDigits (n / 10) h
    omega

theorem getLast?_toDigits (n : ℕ) :
    (Nat.toDigits 10 n).getLast? = some (Nat.digitChar (n % 10)) := by
  rcases Nat.lt_or_ge n 10 with hlt | hle
  · rw [Nat.toDigits_of_lt_base hlt, Nat.mod_eq_of_lt hlt]
    rfl
  · rw [toDigits_eq_append hle, List.getLast?_concat]

theorem toDigits_mul_tenPow {c : ℕ} (hc : 0 < c) : ∀ z : ℕ,
    Nat.toDigits 10 (c * tenPow z) = Nat.toDigits 10 c ++ List.replicate z '0'
  | 0 => by rw [tenPow_zero, Nat.mul_one, List.replicate_zero, List.append_nil]
  | z + 1 => by
    have hsucc : c * tenPow (z + 1) = c * tenPow z * 10 := by
      rw [tenPow_add, ← Nat.mul_assoc]
      rfl
    have hpos := Nat.mul_pos hc (tenPow_pos z)
    rw [hsucc, toDigits_eq_append (by omega), Nat.mul_div_cancel _ (by decide),
      Nat.mul_mod_left, toDigits_mul_tenPow hc z, List.append_assoc, List.replicate_succ']
    rfl

/-- The digits of `n` with zeros in front that make them `k` if they are fewer. -/
def paddedDigits (k n : ℕ) : List Char :=
  List.replicate (k - (Nat.toDigits 10 n).length) '0' ++ Nat.toDigits 10 n

theorem length_paddedDigits {k n : ℕ} (hk : 0 < k) (h : n < tenPow k) :
    (paddedDigits k n).length = k := by
  have hle : (Nat.toDigits 10 n).length ≤ k :=
    (Nat.length_toDigits_le_iff (by decide) hk).mpr h
  rw [paddedDigits, List.length_append, List.length_replicate, Nat.sub_add_cancel hle]

theorem isDigit_paddedDigits (k n : ℕ) : ∀ c ∈ paddedDigits k n, c.isDigit := by
  intro c hc
  rcases List.mem_append.mp hc with hc | hc
  · rw [List.eq_of_mem_replicate hc]
    rfl
  · exact isDigit_toDigits n c hc

theorem ofDigitChars_paddedDigits (k n : ℕ) : Nat.ofDigitChars 10 (paddedDigits k n) 0 = n := by
  rw [paddedDigits, Nat.ofDigitChars_append, Nat.ofDigitChars_replicate_zero, Nat.mul_zero,
    Nat.ofDigitChars_ten_toDigits]

theorem getLast?_paddedDigits (k n : ℕ) :
    (paddedDigits k n).getLast? = some (Nat.digitChar (n % 10)) := by
  rw [paddedDigits, List.getLast?_append, getLast?_toDigits]
  rfl

end Digits

section OfDecimal

variable (x : Decimal)

def fractionDigits : List Char :=
  if x.places = 0 then [] else paddedDigits x.places (x.digits % tenPow x.places)

theorem fractionDigits_eq_nil_iff : fractionDigits x = [] ↔ x.places = 0 := by
  rw [fractionDigits]
  split
  · rename_i h
    exact iff_of_true rfl h
  · rename_i h
    refine iff_of_false (fun hnil => ?_) h
    have := getLast?_paddedDigits x.places (x.digits % tenPow x.places)
    rw [hnil] at this
    cases this

theorem toList_text_eq : x.text.toList
    = Nat.toDigits 10 (x.digits / tenPow x.places) ++ pointed (fractionDigits x) := by
  rw [pointed]
  by_cases h : x.places = 0
  · rw [if_pos ((fractionDigits_eq_nil_iff x).mpr h), Decimal.text, if_pos h, h, tenPow_zero,
      Nat.div_one, List.append_nil]
    exact Nat.toList_repr
  · have hlength (n : ℕ) : (toString n).length = (Nat.toDigits 10 n).length := by
      rw [← String.length_toList]
      exact congrArg List.length Nat.toList_repr
    rw [if_neg ((fractionDigits_eq_nil_iff x).not.mpr h), Decimal.text, if_neg h, fractionDigits,
      if_neg h, paddedDigits, ← hlength]
    simp [Nat.toList_repr]

/-- A decimal whose last place is not zero, with a sign or none. -/
def ofDecimal (isNegative : Bool) (h : x.Reduced) : PlainNumeral where
  isNegative := isNegative
  whole := Nat.toDigits 10 (x.digits / tenPow x.places)
  fraction := fractionDigits x
  whole_ne_nil := Nat.toDigits_ne_nil
  isDigit_whole := isDigit_toDigits _
  whole_eq_zero hzero := by
    rw [eq_zero_of_head?_toDigits _ hzero]
    rfl
  isDigit_fraction := by
    rw [fractionDigits]
    split
    · exact fun _ hc => absurd hc List.not_mem_nil
    · exact isDigit_paddedDigits _ _
  fraction_not_zero := by
    rw [fractionDigits]
    split
    · exact fun hnil => by cases hnil
    · rename_i hplaces
      have hdvd : 10 ∣ tenPow x.places := tenPow_dvd (a := 1) (Nat.pos_of_ne_zero hplaces)
      rw [getLast?_paddedDigits, Nat.mod_mod_of_dvd _ hdvd]
      exact fun hzero =>
        (h.resolve_left hplaces) (Nat.digitChar_eq_zero.mp (Option.some.inj hzero))

variable {x} (isNegative : Bool) (h : x.Reduced)

theorem text_ofDecimal :
    (ofDecimal x isNegative h).text = if isNegative then "-" ++ x.text else x.text := by
  rw [← String.toList_inj, text, String.toList_ofList]
  cases isNegative
  · exact (toList_text_eq x).symm
  · rw [if_pos rfl, String.toList_append, toList_text_eq]
    rfl

theorem fraction_ofDecimal : (ofDecimal x isNegative h).fraction = [] ↔ x.places = 0 :=
  fractionDigits_eq_nil_iff x

theorem value_ofDecimal :
    (ofDecimal x isNegative h).value = (if isNegative then -1 else 1) * x.value := by
  have hpos : (0 : ℚ) < tenPow x.places := Nat.cast_pos.mpr (tenPow_pos _)
  have hfraction : (Nat.ofDigitChars 10 (fractionDigits x) 0 : ℚ)
      / tenPow (fractionDigits x).length = (x.digits % tenPow x.places : ℕ) / tenPow x.places := by
    rw [fractionDigits]
    split
    · rename_i hplaces
      rw [hplaces, tenPow_zero, Nat.mod_one]
      simp [Nat.ofDigitChars_nil]
    · rename_i hplaces
      rw [ofDigitChars_paddedDigits,
        length_paddedDigits (Nat.pos_of_ne_zero hplaces) (Nat.mod_lt _ (tenPow_pos _))]
  have hsplit : (x.digits : ℚ) = (x.digits / tenPow x.places : ℕ) * tenPow x.places
      + (x.digits % tenPow x.places : ℕ) := by
    rw [← Nat.cast_mul, ← Nat.cast_add, Nat.div_add_mod']
  rw [value, Decimal.value, hsplit, add_div, mul_div_cancel_right₀ _ hpos.ne', ← hfraction]
  exact congrArg _ (congrArg (· + _) (congrArg _ Nat.ofDigitChars_ten_toDigits))

end OfDecimal

end PlainNumeral

end PathFunctions
