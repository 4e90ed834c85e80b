/-!
# Numbers in placeholders

A number is the longest run of decimal digits; leading zeros are free. It has to stay below
`numberLimit`, and reading ends at the first digit that takes it there, however many follow.
-/

namespace PathFunctions.Template

/-- Indices and widths are below this. -/
def numberLimit : Nat := 1000000

/-- The number whose digits are those of `value` and then `digit`. -/
def appendDigit (value : Nat) (digit : Char) : Nat :=
  value * 10 + (digit.toNat - '0'.toNat)

/-- Reads the digits after those of `value`; `none` once the number is not below the limit. -/
def readDigits (value : Nat) : List Char → Option (Nat × List Char)
  | [] => some (value, [])
  | c :: cs =>
    if c.isDigit then
      if numberLimit ≤ appendDigit value c then none else readDigits (appendDigit value c) cs
    else some (value, c :: cs)

inductive NumberReading
  | absent
  | tooLarge
  | number (value : Nat) (rest : List Char)
  deriving DecidableEq

def readNumber (cs : List Char) : NumberReading :=
  if (cs.head?.map Char.isDigit).getD false then
    match readDigits 0 cs with
    | none => .tooLarge
    | some (value, rest) => .number value rest
  else .absent

theorem readDigits_suffix : ∀ {cs : List Char} {value n : Nat} {rest : List Char},
    readDigits value cs = some (n, rest) → ∃ digits, cs = digits ++ rest
  | [], value, n, rest, h => by
    simp only [readDigits, Option.some.injEq, Prod.mk.injEq] at h
    exact ⟨[], by simp [← h.2]⟩
  | c :: cs, value, n, rest, h => by
    simp only [readDigits] at h
    split at h
    · split at h
      · cases h
      · obtain ⟨digits, rfl⟩ := readDigits_suffix h
        exact ⟨c :: digits, rfl⟩
    · simp only [Option.some.injEq, Prod.mk.injEq] at h
      exact ⟨[], by simp [← h.2]⟩

theorem readNumber_suffix {cs : List Char} {n : Nat} {rest : List Char}
    (h : readNumber cs = .number n rest) : ∃ digits, cs = digits ++ rest := by
  simp only [readNumber] at h
  split at h
  · split at h
    · cases h
    · rename_i hr
      simp only [NumberReading.number.injEq] at h
      obtain ⟨rfl, rfl⟩ := h
      exact readDigits_suffix hr
  · cases h

end PathFunctions.Template
