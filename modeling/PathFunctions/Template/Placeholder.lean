import PathFunctions.Template.Basic
import PathFunctions.Template.Number

/-!
# Reading a placeholder

What may stand between the braces is an index, then after a comma a width with an optional minus
sign, then after a colon a specifier, which is skipped. Spaces may follow the index, the comma
and the width. `readPlaceholder` starts after the opening brace and ends after the closing one, so
it always takes something off the text (`readPlaceholder_length`).
-/

namespace PathFunctions.Template

def skipSpaces : List Char → List Char
  | ' ' :: cs => skipSpaces cs
  | cs => cs

/-- Whether a minus sign comes first, and what follows it. -/
def readMinus : List Char → Bool × List Char
  | '-' :: cs => (true, cs)
  | cs => (false, cs)

/-- The width after a comma, negative after a minus sign; 0 without a comma. -/
def readAlignment : List Char → Except TemplateFault (Int × List Char)
  | ',' :: cs =>
    let (negative, digits) := readMinus (skipSpaces cs)
    match readNumber digits with
    | .number width rest => .ok (if negative then -(width : Int) else width, skipSpaces rest)
    | .absent | .tooLarge => .error .invalidAlignment
  | cs => .ok (0, cs)

/-- What follows the first closing brace. -/
def skipSpecifier : List Char → Option (List Char)
  | [] => none
  | c :: cs => if c = '}' then some cs else skipSpecifier cs

/-- The closing brace, after a specifier if a colon stands before it. -/
def readEnd : List Char → Except TemplateFault (List Char)
  | '}' :: cs => .ok cs
  | ':' :: cs =>
    match skipSpecifier cs with
    | some rest => .ok rest
    | none => .error .unterminatedPlaceholder
  | _ => .error .unterminatedPlaceholder

def readPlaceholder (cs : List Char) : Except TemplateFault (Placeholder × List Char) :=
  match readNumber cs with
  | .absent => .error (if cs.isEmpty then .unterminatedPlaceholder else .missingIndex)
  | .tooLarge => .error .indexTooLarge
  | .number index rest => do
    let (alignment, rest) ← readAlignment (skipSpaces rest)
    let rest ← readEnd rest
    return (⟨index, alignment⟩, rest)

theorem skipSpaces_suffix : ∀ cs : List Char, ∃ spaces, cs = spaces ++ skipSpaces cs := by
  intro cs
  fun_induction skipSpaces cs with
  | case1 cs ih =>
    obtain ⟨spaces, h⟩ := ih
    exact ⟨' ' :: spaces, by rw [List.cons_append, ← h]⟩
  | case2 cs => exact ⟨[], rfl⟩

theorem readMinus_suffix (cs : List Char) : ∃ sign, cs = sign ++ (readMinus cs).2 := by
  fun_cases readMinus cs with
  | case1 cs => exact ⟨['-'], rfl⟩
  | case2 cs => exact ⟨[], rfl⟩

theorem readAlignment_suffix {cs rest : List Char} {alignment : Int}
    (h : readAlignment cs = .ok (alignment, rest)) : ∃ read, cs = read ++ rest := by
  unfold readAlignment at h
  split at h
  · rename_i ds
    obtain ⟨spaces, hs⟩ := skipSpaces_suffix ds
    obtain ⟨sign, hm⟩ := readMinus_suffix (skipSpaces ds)
    simp only at h
    split at h
    · rename_i width after hn
      obtain ⟨digits, hd⟩ := readNumber_suffix hn
      obtain ⟨blanks, hb⟩ := skipSpaces_suffix after
      simp only [Except.ok.injEq, Prod.mk.injEq] at h
      refine ⟨',' :: (spaces ++ sign ++ digits ++ blanks), ?_⟩
      rw [hs, hm, hd, hb, h.2]
      simp
    · cases h
    · cases h
  · simp only [Except.ok.injEq, Prod.mk.injEq] at h
    exact ⟨[], by simp [h.2]⟩

theorem skipSpecifier_suffix : ∀ {cs rest : List Char}, skipSpecifier cs = some rest →
    ∃ specifier, cs = specifier ++ '}' :: rest
  | c :: cs, rest, h => by
    simp only [skipSpecifier] at h
    split at h
    · rename_i hc
      simp only [Option.some.injEq] at h
      exact ⟨[], by simp [hc, h]⟩
    · obtain ⟨specifier, rfl⟩ := skipSpecifier_suffix h
      exact ⟨c :: specifier, rfl⟩

theorem readEnd_suffix {cs rest : List Char} (h : readEnd cs = .ok rest) :
    ∃ read, read ≠ [] ∧ cs = read ++ rest := by
  unfold readEnd at h
  split at h
  · simp only [Except.ok.injEq] at h
    exact ⟨['}'], by simp, by simp [h]⟩
  · split at h
    · rename_i hs
      simp only [Except.ok.injEq] at h
      obtain ⟨specifier, rfl⟩ := skipSpecifier_suffix hs
      exact ⟨':' :: (specifier ++ ['}']), by simp, by simp [h]⟩
    · cases h
  · cases h

theorem readPlaceholder_suffix {cs rest : List Char} {hole : Placeholder}
    (h : readPlaceholder cs = .ok (hole, rest)) : ∃ read, read ≠ [] ∧ cs = read ++ rest := by
  unfold readPlaceholder at h
  split at h
  · cases h
  · cases h
  · rename_i index after hn
    obtain ⟨digits, rfl⟩ := readNumber_suffix hn
    obtain ⟨spaces, hs⟩ := skipSpaces_suffix after
    cases ha : readAlignment (skipSpaces after) with
    | error fault => rw [ha] at h; cases h
    | ok found =>
      obtain ⟨alignment, tail⟩ := found
      obtain ⟨read, hr⟩ := readAlignment_suffix ha
      rw [ha] at h
      cases he : readEnd tail with
      | error fault => simp [bind, Except.bind, he] at h
      | ok left =>
        simp only [bind, Except.bind, he, pure, Except.pure, Except.ok.injEq,
          Prod.mk.injEq] at h
        obtain ⟨closing, hne, hc⟩ := readEnd_suffix he
        refine ⟨digits ++ spaces ++ read ++ closing, by simp [hne], ?_⟩
        rw [hs, hr, hc, h.2]
        simp

theorem readPlaceholder_length {cs rest : List Char} {hole : Placeholder}
    (h : readPlaceholder cs = .ok (hole, rest)) : rest.length < cs.length := by
  obtain ⟨read, hne, rfl⟩ := readPlaceholder_suffix h
  have := List.length_pos_iff.mpr hne
  simp only [List.length_append]
  omega

end PathFunctions.Template
