import Mathlib.Logic.ExistsUnique
import PathFunctions.Call.Argument

/-!
# Arguments and the values they give

Arguments give their elements as values one after another: a scalar is one element, a sequence has
one for each node it hands out. Each value is one element of one argument
(`existsUnique_isElement`), whose text is found at the place of the value among the flattened
arguments (`getElem?_valueTexts`).
-/

namespace PathFunctions

variable {N : Type}

/-- How many elements an argument has. -/
def Argument.size : Argument N → Nat
  | .scalar _ => 1
  | .nodes sequence => sequence.toList.length

/-- How many values some arguments give. -/
def valueCount : List (Argument N) → Nat
  | [] => 0
  | arg :: args => arg.size + valueCount args

/-- Element `place.2` of argument `place.1` is the value of that index. -/
def IsElement (args : List (Argument N)) (index : Nat) (place : Nat × Nat) : Prop :=
  ∃ arg, args[place.1]? = some arg ∧ place.2 < arg.size
    ∧ valueCount (args.take place.1) + place.2 = index

section Places

variable {arg : Argument N} {args : List (Argument N)} {index i j : Nat}

theorem isElement_zero : IsElement (arg :: args) index (0, j) ↔ j < arg.size ∧ j = index := by
  simp [IsElement, valueCount]

theorem isElement_succ :
    IsElement (arg :: args) index (i + 1, j)
      ↔ arg.size ≤ index ∧ IsElement args (index - arg.size) (i, j) := by
  simp only [IsElement, List.getElem?_cons_succ, List.take_succ_cons, valueCount]
  constructor
  · rintro ⟨found, hi, hj, rfl⟩
    exact ⟨by omega, found, hi, hj, by omega⟩
  · rintro ⟨hle, found, hi, hj, hindex⟩
    exact ⟨found, hi, hj, by omega⟩

theorem existsUnique_isElement : ∀ {args : List (Argument N)} {index : Nat},
    index < valueCount args → ∃! place, IsElement args index place
  | [], index, h => absurd h (Nat.not_lt_zero index)
  | arg :: args, index, h => by
    rw [valueCount] at h
    by_cases hlt : index < arg.size
    · refine ⟨(0, index), isElement_zero.mpr ⟨hlt, rfl⟩, ?_⟩
      rintro ⟨_ | i, j⟩ hplace
      · rw [(isElement_zero.mp hplace).2]
      · exact absurd hlt (Nat.not_lt.mpr (isElement_succ.mp hplace).1)
    · obtain ⟨⟨i, j⟩, hplace, hunique⟩ :=
        existsUnique_isElement (show index - arg.size < valueCount args by omega)
      refine ⟨(i + 1, j), isElement_succ.mpr ⟨Nat.le_of_not_lt hlt, hplace⟩, ?_⟩
      rintro ⟨_ | i', j'⟩ hother
      · obtain ⟨hj, rfl⟩ := isElement_zero.mp hother
        exact absurd hj hlt
      · cases hunique (i', j') (isElement_succ.mp hother).2
        rfl

end Places

variable [Node N]

/-- The texts of the elements of an argument. -/
def Argument.texts : Argument N → List String
  | .scalar value => [value.text]
  | .nodes sequence => sequence.toList.map Node.stringValue

/-- The text of element `place.2` of argument `place.1`. -/
def textAt? (args : List (Argument N)) (place : Nat × Nat) : Option String :=
  args[place.1]?.bind fun arg => arg.texts[place.2]?

/-- The texts of the values that some arguments give. -/
def valueTexts (args : List (Argument N)) : List String := (flatten args).map Item.text

section Texts

theorem Argument.length_texts : ∀ arg : Argument N, arg.texts.length = arg.size
  | .scalar _ => rfl
  | .nodes _ => List.length_map _

theorem Argument.map_text_items : ∀ arg : Argument N, arg.items.map Item.text = arg.texts
  | .scalar _ => rfl
  | .nodes _ => List.map_map

theorem valueTexts_append (args others : List (Argument N)) :
    valueTexts (args ++ others) = valueTexts args ++ valueTexts others := by
  rw [valueTexts, flatten, List.flatMap_append, List.map_append]
  rfl

theorem valueTexts_cons (arg : Argument N) (args : List (Argument N)) :
    valueTexts (arg :: args) = arg.texts ++ valueTexts args := by
  rw [valueTexts, flatten, List.flatMap_cons, List.map_append, arg.map_text_items]
  rfl

theorem length_valueTexts : ∀ args : List (Argument N), (valueTexts args).length = valueCount args
  | [] => rfl
  | arg :: args => by
    rw [valueTexts_cons, List.length_append, arg.length_texts, length_valueTexts args,
      valueCount]

theorem getElem?_valueTexts : ∀ {args : List (Argument N)} {index : Nat} {place : Nat × Nat},
    IsElement args index place → (valueTexts args)[index]? = textAt? args place
  | [], _, _, ⟨_, hnone, _⟩ => nomatch hnone
  | arg :: args, index, (0, j), h => by
    obtain ⟨hj, rfl⟩ := isElement_zero.mp h
    rw [valueTexts_cons, List.getElem?_append_left (arg.length_texts.symm ▸ hj)]
    rfl
  | arg :: args, index, (i + 1, j), h => by
    obtain ⟨hle, h⟩ := isElement_succ.mp h
    rw [valueTexts_cons, List.getElem?_append_right (arg.length_texts.symm ▸ hle), arg.length_texts,
      getElem?_valueTexts h]
    rfl

end Texts

end PathFunctions
