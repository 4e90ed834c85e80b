import Mathlib.Data.List.TakeWhile
import PathFunctions.Template.Number

/-!
# Numerals

A numeral is a run of decimal digits whose value is below the limit. Reading a number stops at the
first digit that takes the value to the limit, yet it fails exactly when the value of the whole run
is not below the limit (`readNumber_eq`): the value of a run never falls as digits are added to it
(`le_ofDigitChars`).
-/

namespace PathFunctions.Template

section Runs

variable {α : Type} {p : α → Bool}

theorem takeWhile_append_stop {run rest : List α} (hr : ∀ a ∈ run, p a)
    (hs : rest.takeWhile p = []) : (run ++ rest).takeWhile p = run := by
  rw [List.takeWhile_append_of_pos hr, hs, List.append_nil]

theorem dropWhile_append_stop {run rest : List α} (hr : ∀ a ∈ run, p a)
    (hs : rest.takeWhile p = []) : (run ++ rest).dropWhile p = rest := by
  have h := List.takeWhile_append_dropWhile (p := p) (l := rest)
  rw [hs, List.nil_append] at h
  rw [List.dropWhile_append_of_pos hr, h]

/-- Where a run ends is settled by the text, if what follows it cannot go on with it. -/
theorem append_inj_of_stop {run run' rest rest' : List α} (hr : ∀ a ∈ run, p a)
    (hr' : ∀ a ∈ run', p a) (hs : rest.takeWhile p = []) (hs' : rest'.takeWhile p = [])
    (h : run ++ rest = run' ++ rest') : run = run' ∧ rest = rest' := by
  have htake := congrArg (List.takeWhile p) h
  have hdrop := congrArg (List.dropWhile p) h
  rw [takeWhile_append_stop hr hs, takeWhile_append_stop hr' hs'] at htake
  rw [dropWhile_append_stop hr hs, dropWhile_append_stop hr' hs'] at hdrop
  exact ⟨htake, hdrop⟩

end Runs

/-- A number as it is written: any run of digits for it, leading zeros included. -/
structure Numeral where
  digits : List Char
  ne_nil : digits ≠ []
  isDigit : ∀ c ∈ digits, c.isDigit
  lt_limit : Nat.ofDigitChars 10 digits 0 < numberLimit

def Numeral.value (numeral : Numeral) : Nat := Nat.ofDigitChars 10 numeral.digits 0

theorem Numeral.ext {n m : Numeral} (h : n.digits = m.digits) : n = m := by
  cases n
  cases m
  cases h
  rfl

theorem ofDigitChars_cons_eq (c : Char) (digits : List Char) (value : Nat) :
    Nat.ofDigitChars 10 (c :: digits) value
      = Nat.ofDigitChars 10 digits (appendDigit value c) := by
  rw [Nat.ofDigitChars_cons, appendDigit, Nat.mul_comm]

theorem le_ofDigitChars : ∀ (digits : List Char) (value : Nat),
    value ≤ Nat.ofDigitChars 10 digits value
  | [], value => by rw [Nat.ofDigitChars_nil]
  | c :: digits, value => by
    have h := le_ofDigitChars digits (appendDigit value c)
    rw [ofDigitChars_cons_eq]
    simp only [appendDigit] at h ⊢
    omega

/-- Stopping at the limit comes to the same as comparing the value of all the digits with it. -/
theorem readDigits_eq : ∀ (cs : List Char) {value : Nat}, value < numberLimit →
    readDigits value cs =
      if numberLimit ≤ Nat.ofDigitChars 10 (cs.takeWhile Char.isDigit) value then none
      else some (Nat.ofDigitChars 10 (cs.takeWhile Char.isDigit) value,
        cs.dropWhile Char.isDigit)
  | [], value, h => by
    rw [List.takeWhile_nil, Nat.ofDigitChars_nil, if_neg (by omega)]
    rfl
  | c :: cs, value, h => by
    unfold readDigits
    split
    · rename_i hc
      rw [List.takeWhile_cons_of_pos hc, List.dropWhile_cons_of_pos hc, ofDigitChars_cons_eq]
      split
      · rename_i hle
        rw [if_pos (hle.trans (le_ofDigitChars _ _))]
      · exact readDigits_eq cs (by omega)
    · rename_i hc
      rw [List.takeWhile_cons_of_neg hc, List.dropWhile_cons_of_neg hc, Nat.ofDigitChars_nil,
        if_neg (by omega)]

theorem readNumber_eq (cs : List Char) :
    readNumber cs =
      if cs.takeWhile Char.isDigit = [] then .absent
      else if numberLimit ≤ Nat.ofDigitChars 10 (cs.takeWhile Char.isDigit) 0 then .tooLarge
      else .number (Nat.ofDigitChars 10 (cs.takeWhile Char.isDigit) 0)
        (cs.dropWhile Char.isDigit) := by
  have hstart : ((cs.head?.map Char.isDigit).getD false = true)
      ↔ ¬ cs.takeWhile Char.isDigit = [] := by
    rcases cs with _ | ⟨c, cs⟩
    · simp
    · by_cases hc : c.isDigit <;> simp [hc]
  unfold readNumber
  by_cases h : cs.takeWhile Char.isDigit = []
  · rw [if_neg (hstart.not.mpr (not_not_intro h)), if_pos h]
  · rw [if_pos (hstart.mpr h), if_neg h, readDigits_eq cs (by decide)]
    split <;> rename_i hr
    · split at hr
      · rename_i hle
        rw [if_pos hle]
      · cases hr
    · split at hr
      · cases hr
      · rename_i hlt
        rw [if_neg hlt]
        cases hr
        rfl

theorem readNumber_append (numeral : Numeral) {rest : List Char}
    (h : rest.takeWhile Char.isDigit = []) :
    readNumber (numeral.digits ++ rest) = .number numeral.value rest := by
  rw [readNumber_eq, takeWhile_append_stop numeral.isDigit h,
    dropWhile_append_stop numeral.isDigit h, if_neg numeral.ne_nil,
    if_neg (Nat.not_le.mpr numeral.lt_limit)]
  rfl

theorem exists_numeral {cs rest : List Char} {value : Nat}
    (h : readNumber cs = .number value rest) :
    ∃ numeral : Numeral, cs = numeral.digits ++ rest ∧ numeral.value = value := by
  rw [readNumber_eq] at h
  split at h
  · cases h
  rename_i hne
  split at h
  · cases h
  rename_i hlt
  simp only [NumberReading.number.injEq] at h
  obtain ⟨rfl, rfl⟩ := h
  exact ⟨⟨cs.takeWhile Char.isDigit, hne, fun _ => List.mem_takeWhile_imp, Nat.not_le.mp hlt⟩,
    List.takeWhile_append_dropWhile.symm, rfl⟩

end PathFunctions.Template
