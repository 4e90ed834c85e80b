import Mathlib.Algebra.Group.Int.Defs
import Mathlib.Algebra.Group.Nat.Defs
import PathFunctions.Proofs.Numeral
import PathFunctions.Template.Placeholder

/-!
# Numbers in bounded arithmetic

Reading stops at the first number that reaches the limit, so the next one is always made from a
number below the limit and one digit and has at most seven digits (`appendDigit_le`). Arithmetic
in which a product or sum above 9999999 fails therefore never fails (`readWithin_eq`), and neither
does any with more room. A width that has been read fits a signed word of 24 bits, and so does its
negation (`toInt_alignmentWord`).
-/

namespace PathFunctions.Template

/-- The result of an operation, if there is room for it. -/
def fit? (capacity n : Nat) : Option Nat := if n ≤ capacity then some n else none

/-- The number with one digit more, if there is room for the product and for the sum. -/
def appendDigitWithin? (capacity value : Nat) (digit : Char) : Option Nat :=
  (fit? capacity (value * 10)).bind fun product =>
    fit? capacity (product + (digit.toNat - '0'.toNat))

/-- How reading a number with bounded arithmetic ends. -/
inductive BoundedReading
  | overflow
  | tooLarge
  | read (value : Option Nat) (rest : List Char)
  deriving DecidableEq

/-- Reads on after the digits of `value`, or from the first digit if there is none yet, with
arithmetic that fails above `capacity`. -/
def readWithin (capacity : Nat) (value : Option Nat) : List Char → BoundedReading
  | [] => .read value []
  | c :: cs =>
    if c.isDigit then
      match appendDigitWithin? capacity (value.getD 0) c with
      | none => .overflow
      | some next =>
        if numberLimit ≤ next then .tooLarge else readWithin capacity (some next) cs
    else .read value (c :: cs)

/-- A reading with the text it leaves; without a number that is all of it. -/
def NumberReading.bounded (cs : List Char) : NumberReading → BoundedReading
  | .absent => .read none cs
  | .tooLarge => .tooLarge
  | .number value rest => .read (some value) rest

/-- A width, negated after a minus sign, in the signed numbers of so many bits. -/
def alignmentWord (bits : Nat) (negative : Bool) (width : Nat) : BitVec bits :=
  if negative then -BitVec.ofNat bits width else BitVec.ofNat bits width

section Outcomes

variable {cs : List Char}

theorem readNumber_eq_absent_iff :
    readNumber cs = .absent ↔ cs.takeWhile Char.isDigit = [] := by
  rw [readNumber_eq]
  split
  · rename_i hnil
    exact iff_of_true rfl hnil
  · rename_i hne
    refine iff_of_false (fun h => ?_) hne
    split at h <;> cases h

theorem readNumber_eq_tooLarge_iff :
    readNumber cs = .tooLarge
      ↔ numberLimit ≤ Nat.ofDigitChars 10 (cs.takeWhile Char.isDigit) 0 := by
  rw [readNumber_eq]
  split
  · rename_i hnil
    rw [hnil, Nat.ofDigitChars_nil]
    exact iff_of_false (fun h => by cases h) (by decide)
  · split
    · rename_i hle
      exact iff_of_true rfl hle
    · rename_i hlt
      exact iff_of_false (fun h => by cases h) hlt

theorem readNumber_eq_number_iff {value : Nat} {rest : List Char} :
    readNumber cs = .number value rest
      ↔ cs.takeWhile Char.isDigit ≠ []
        ∧ Nat.ofDigitChars 10 (cs.takeWhile Char.isDigit) 0 = value ∧ value < numberLimit
        ∧ cs.dropWhile Char.isDigit = rest := by
  rw [readNumber_eq]
  constructor
  · intro h
    split at h
    · cases h
    rename_i hne
    split at h
    · cases h
    rename_i hlt
    cases h
    exact ⟨hne, rfl, Nat.not_le.mp hlt, rfl⟩
  · rintro ⟨hne, rfl, hlt, rfl⟩
    rw [if_neg hne, if_neg (Nat.not_le.mpr hlt)]

end Outcomes

theorem appendDigit_le {value : Nat} {c : Char} (hvalue : value < numberLimit)
    (hc : c.isDigit) : appendDigit value c ≤ 9999999 := by
  have hdigit := Char.isDigit_iff_toNat.mp hc
  simp only [numberLimit, appendDigit, Char.reduceToNat] at *
  omega

section Room

variable {capacity : Nat} (hroom : 9999999 ≤ capacity)

include hroom

theorem appendDigitWithin?_eq {value : Nat} {c : Char} (hvalue : value < numberLimit)
    (hc : c.isDigit) : appendDigitWithin? capacity value c = some (appendDigit value c) := by
  have hsum : appendDigit value c ≤ capacity := (appendDigit_le hvalue hc).trans hroom
  have hproduct : value * 10 ≤ capacity := (Nat.le_add_right _ _).trans hsum
  rw [appendDigitWithin?, fit?, if_pos hproduct, Option.bind_some, fit?]
  exact if_pos hsum

theorem readWithin_some : ∀ (cs : List Char) {value : Nat}, value < numberLimit →
    readWithin capacity (some value) cs =
      match readDigits value cs with
      | none => .tooLarge
      | some (n, rest) => .read (some n) rest
  | [], value, _ => rfl
  | c :: cs, value, hvalue => by
    rw [readWithin, readDigits]
    split
    · rename_i hc
      rw [Option.getD_some, appendDigitWithin?_eq hroom hvalue hc]
      simp only
      split
      · rfl
      · rename_i hlt
        exact readWithin_some cs (Nat.not_le.mp hlt)
    · rfl

/-- With room for seven digits reading does not notice that its arithmetic is bounded. -/
theorem readWithin_eq (cs : List Char) :
    readWithin capacity none cs = (readNumber cs).bounded cs := by
  rcases cs with _ | ⟨c, cs⟩
  · rfl
  -- The first digit is put after no digits as it is after a zero.
  have hzero : c.isDigit →
      readWithin capacity none (c :: cs) = readWithin capacity (some 0) (c :: cs) := by
    intro hc
    rw [readWithin, readWithin, if_pos hc, if_pos hc]
    rfl
  rw [readNumber]
  by_cases hc : c.isDigit
  · rw [hzero hc, readWithin_some hroom (c :: cs) (by decide), List.head?_cons, Option.map_some,
      Option.getD_some, if_pos hc]
    rcases readDigits 0 (c :: cs) with _ | ⟨value, rest⟩ <;> rfl
  · rw [readWithin, if_neg hc, List.head?_cons, Option.map_some, Option.getD_some, if_neg hc]
    rfl

end Room

-- There has to be room for all seven digits.
example : readWithin 9999998 none "9999999".toList = .overflow := by decide

section Words

variable {bits : Nat} (hbits : 24 ≤ bits)

include hbits

theorem toInt_alignmentWord {width : Nat} (hwidth : width < numberLimit) (negative : Bool) :
    (alignmentWord bits negative width).toInt
      = if negative then -(width : Int) else width := by
  have hword : alignmentWord bits negative width
      = BitVec.ofInt bits (if negative then -(width : Int) else width) := by
    cases negative
    · exact (BitVec.ofInt_natCast bits width).symm
    · rw [alignmentWord, if_pos rfl, if_pos rfl, BitVec.ofInt_neg, BitVec.ofInt_natCast]
  have hpow : (2 : Int) ^ 23 ≤ 2 ^ (bits - 1) := by
    exact_mod_cast Nat.pow_le_pow_right (by decide) (Nat.le_sub_one_of_lt hbits)
  rw [hword]
  simp only [numberLimit] at hwidth
  refine BitVec.toInt_ofInt_eq_self (by omega) ?_ ?_ <;> split <;> omega

/-- The alignment that is read is the one which signed words would give. -/
theorem alignmentWord_of_readAlignment {cs rest : List Char} {alignment : Int}
    (h : readAlignment (',' :: cs) = .ok (alignment, rest)) :
    ∃ width after, readNumber (readMinus (skipSpaces cs)).2 = .number width after
      ∧ (BitVec.ofNat bits width).toInt = width
      ∧ (alignmentWord bits (readMinus (skipSpaces cs)).1 width).toInt = alignment := by
  simp only [readAlignment] at h
  split at h
  · rename_i width after hn
    obtain ⟨numeral, -, rfl⟩ := exists_numeral hn
    have hword := toInt_alignmentWord hbits numeral.lt_limit
    cases h
    exact ⟨_, after, hn, hword false, hword _⟩
  · cases h
  · cases h

end Words

/-- Reading a number comes to the value of the whole run of digits at the start, compared with the
limit; no product or sum on the way is above 9999999, so words of 24 bits and more have room for
them, and for the alignment that a width and a minus sign give. -/
theorem readNumber_whole {bits : Nat} (hbits : 24 ≤ bits) (cs : List Char) :
    (readNumber cs = .absent ↔ cs.takeWhile Char.isDigit = [])
      ∧ (∀ value rest, readNumber cs = .number value rest
        ↔ cs.takeWhile Char.isDigit ≠ []
          ∧ Nat.ofDigitChars 10 (cs.takeWhile Char.isDigit) 0 = value ∧ value < 1000000
          ∧ cs.dropWhile Char.isDigit = rest)
      ∧ (readNumber cs = .tooLarge
        ↔ 1000000 ≤ Nat.ofDigitChars 10 (cs.takeWhile Char.isDigit) 0)
      ∧ readWithin 9999999 none cs = (readNumber cs).bounded cs
      ∧ readWithin (2 ^ bits - 1) none cs = (readNumber cs).bounded cs
      ∧ ∀ alignment rest, readAlignment (',' :: cs) = .ok (alignment, rest) →
        ∃ width after, readNumber (readMinus (skipSpaces cs)).2 = .number width after
          ∧ (BitVec.ofNat bits width).toInt = width
          ∧ (alignmentWord bits (readMinus (skipSpaces cs)).1 width).toInt = alignment := by
  have hpow : 2 ^ 24 ≤ 2 ^ bits := Nat.pow_le_pow_right (by decide) hbits
  exact ⟨readNumber_eq_absent_iff, fun _ _ => readNumber_eq_number_iff,
    readNumber_eq_tooLarge_iff, readWithin_eq (Nat.le_refl _) cs, readWithin_eq (by omega) cs,
    fun _ _ h => alignmentWord_of_readAlignment hbits h⟩

theorem readNumber_whole_words :
    readWithin (2 ^ 32 - 1) none "0000000999999 :".toList = .read (some 999999) " :".toList
      ∧ readNumber "00010000001".toList = .tooLarge
      ∧ ∃ width after, readNumber "000999999\x7d".toList = .number width after
        ∧ (alignmentWord 64 true width).toInt = -999999 := by
  have hread := (@readNumber_whole 32 (by decide) "0000000999999 :".toList).2.2.2.2.1
  have hlarge := (@readNumber_whole 32 (by decide) "00010000001".toList).2.2.1.mpr
    (by decide)
  obtain ⟨width, after, hnumber, -, hword⟩ :=
    (@readNumber_whole 64 (by decide) " -000999999\x7d".toList).2.2.2.2.2
      (-999999) "\x7d".toList (by decide)
  refine ⟨?_, hlarge, width, after, hnumber, hword⟩
  rw [hread]
  decide

end PathFunctions.Template
