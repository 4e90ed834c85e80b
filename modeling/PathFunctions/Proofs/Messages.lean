import Std.Data.String.ToNat
import PathFunctions.Error
import PathFunctions.Proofs.Quotation

/-!
# Messages tell errors apart

No two errors have the same message (`message_eq_iff`). Names stand in messages as they are, so
they may hold anything a message may say; what follows a name is read from the end of the message
instead, where only numbers and fixed words stand. A template is quoted and is read from the start.
-/

namespace PathFunctions

section Runs

variable {p : Char → Bool} {run run' rest rest' : String}

theorem append_inj_of_stop_start (hr : ∀ c ∈ run.toList, p c) (hr' : ∀ c ∈ run'.toList, p c)
    (hs : rest.toList.takeWhile p = []) (hs' : rest'.toList.takeWhile p = [])
    (h : run ++ rest = run' ++ rest') : run = run' ∧ rest = rest' := by
  have hlist := congrArg String.toList h
  rw [String.toList_append, String.toList_append] at hlist
  obtain ⟨hrun, hrest⟩ := Template.append_inj_of_stop hr hr' hs hs' hlist
  exact ⟨String.toList_inj.mp hrun, String.toList_inj.mp hrest⟩

/-- Where a run at the end of a text starts is settled by the text, if what comes before it cannot
be part of it. -/
theorem append_inj_of_stop_end (hr : ∀ c ∈ run.toList, p c) (hr' : ∀ c ∈ run'.toList, p c)
    (hs : rest.toList.reverse.takeWhile p = []) (hs' : rest'.toList.reverse.takeWhile p = [])
    (h : rest ++ run = rest' ++ run') : rest = rest' ∧ run = run' := by
  have hlist := congrArg (fun text => text.toList.reverse) h
  simp only [String.toList_append, List.reverse_append] at hlist
  obtain ⟨hrun, hrest⟩ := Template.append_inj_of_stop
    (fun c hc => hr c (List.mem_reverse.mp hc)) (fun c hc => hr' c (List.mem_reverse.mp hc))
    hs hs' hlist
  exact ⟨String.toList_inj.mp (List.reverse_inj.mp hrest),
    String.toList_inj.mp (List.reverse_inj.mp hrun)⟩

end Runs

section Numbers

variable {n m : Nat} {rest rest' : String}

theorem isDigit_of_mem_toString {c : Char} (h : c ∈ (toString n).toList) : c.isDigit := by
  rw [Nat.toString_eq_repr, Nat.toList_repr] at h
  exact Nat.isDigit_of_mem_toDigits (by decide) (by decide) h

theorem toString_toList_ne_nil (n : Nat) : (toString n).toList ≠ [] := by
  rw [Nat.toString_eq_repr, Nat.toList_repr]
  exact Nat.toDigits_ne_nil

/-- A number is read up to where its digits end. -/
theorem toString_append_inj (hs : rest.toList.takeWhile Char.isDigit = [])
    (hs' : rest'.toList.takeWhile Char.isDigit = [])
    (h : toString n ++ rest = toString m ++ rest') : n = m ∧ rest = rest' := by
  obtain ⟨hdigits, hrest⟩ := append_inj_of_stop_start (fun _ => isDigit_of_mem_toString)
    (fun _ => isDigit_of_mem_toString) hs hs' h
  exact ⟨Nat.repr_injective hdigits, hrest⟩

theorem append_toString_inj (hs : rest.toList.reverse.takeWhile Char.isDigit = [])
    (hs' : rest'.toList.reverse.takeWhile Char.isDigit = [])
    (h : rest ++ toString n = rest' ++ toString m) : rest = rest' ∧ n = m := by
  obtain ⟨hrest, hdigits⟩ := append_inj_of_stop_end (fun _ => isDigit_of_mem_toString)
    (fun _ => isDigit_of_mem_toString) hs hs' h
  exact ⟨hrest, Nat.repr_injective hdigits⟩

theorem toString_append_ne (hs : rest.toList.takeWhile Char.isDigit = [])
    (hs' : rest'.toList.takeWhile Char.isDigit = []) : toString n ++ rest ≠ rest' := by
  intro h
  have hempty : toString n ++ rest = "" ++ rest' := h.trans String.empty_append.symm
  obtain ⟨hdigits, -⟩ := append_inj_of_stop_start (fun _ => isDigit_of_mem_toString) (by simp)
    hs hs' hempty
  exact toString_toList_ne_nil n (hdigits ▸ String.toList_empty)

end Numbers

theorem TemplateFault.indexOutOfRange_message_inj {index count index' count' : Nat}
    (h : (indexOutOfRange index count).message = (indexOutOfRange index' count').message) :
    index = index' ∧ count = count' := by
  simp only [message, String.append_assoc, String.append_right_inj] at h
  obtain ⟨hindex, hrest⟩ := toString_append_inj (by simp) (by simp) h
  have hcount := (String.append_right_inj _).mp hrest
  exact ⟨hindex, (toString_append_inj (by simp) (by simp) hcount).1⟩

theorem TemplateFault.message_inj {fault other : TemplateFault}
    (h : fault.message = other.message) : fault = other := by
  have hlist := congrArg String.toList h
  cases fault with
  | indexOutOfRange index count =>
    cases other with
    | indexOutOfRange index' count' =>
      obtain ⟨rfl, rfl⟩ := indexOutOfRange_message_inj h
      rfl
    | _ => simp [message] at hlist
  | _ => cases other <;> simp [message] at hlist ⊢

namespace CallError

section Range

variable {min min' : Nat} {max max' : Option Nat}

/-- What follows the least number in a range that starts with it. -/
def rangeTail (min max : Nat) : String := if max = min then "" else "..=" ++ toString max

theorem arityRange_some (min max : Nat) :
    arityRange min (some max) = toString min ++ rangeTail min max := by
  simp only [arityRange, rangeTail]
  split
  · rw [String.append_empty]
  · rw [String.append_assoc]

theorem stop_rangeTail (min max : Nat) :
    (rangeTail min max).toList.takeWhile Char.isDigit = [] := by
  unfold rangeTail
  split <;> simp

theorem rangeTail_inj {max max' : Nat} (h : rangeTail min max = rangeTail min max') :
    max = max' := by
  unfold rangeTail at h
  split at h <;> split at h
  · omega
  · simpa using congrArg String.toList h
  · simpa using congrArg String.toList h
  · exact Nat.repr_injective ((String.append_right_inj _).mp h)

theorem arityRange_inj (h : arityRange min max = arityRange min' max') :
    min = min' ∧ max = max' := by
  rcases max with _ | max <;> rcases max' with _ | max'
  · exact ⟨Nat.repr_injective ((String.append_right_inj _).mp h), rfl⟩
  · rw [arityRange_some] at h
    exact absurd h.symm (toString_append_ne (stop_rangeTail _ _) (by simp [arityRange]))
  · rw [arityRange_some] at h
    exact absurd h (toString_append_ne (stop_rangeTail _ _) (by simp [arityRange]))
  · rw [arityRange_some, arityRange_some] at h
    obtain ⟨rfl, htail⟩ := toString_append_inj (stop_rangeTail _ _) (stop_rangeTail _ _) h
    rw [rangeTail_inj htail]
    exact ⟨rfl, rfl⟩

theorem exists_append_toString (min : Nat) (max : Option Nat) :
    ∃ (before : String) (n : Nat), arityRange min max = before ++ toString n := by
  rcases max with _ | max
  · exact ⟨"at least ", min, rfl⟩
  · simp only [arityRange]
    split
    · exact ⟨"", min, String.empty_append.symm⟩
    · exact ⟨toString min ++ "..=", max, rfl⟩

theorem semicolon_notMem_arityRange (min : Nat) (max : Option Nat) :
    ';' ∉ (arityRange min max).toList := by
  have hnumber : ∀ n : Nat, ';' ∉ (toString n).toList :=
    fun n h => absurd (isDigit_of_mem_toString h) (by decide)
  rcases max with _ | max
  · simp only [arityRange, String.toList_append, List.mem_append, not_or]
    exact ⟨by simp, hnumber min⟩
  · simp only [arityRange]
    split
    · exact hnumber min
    · simp only [String.toList_append, List.mem_append, not_or]
      exact ⟨⟨hnumber min, by simp⟩, hnumber max⟩

end Range

section Detail

variable {name name' template template' : String} {arity arity' min min' position position' : Nat}
  {max max' : Option Nat} {fault fault' : TemplateFault}

theorem functionNotFound_detail_inj
    (h : (functionNotFound name).detail = (functionNotFound name').detail) : name = name' :=
  (String.append_right_inj _).mp ((String.append_left_inj _).mp h)

/-- What is said of a call before its range. -/
def arityCall (name : String) (arity : Nat) : String :=
  "function \"" ++ name ++ "\" cannot be called with " ++ toString arity ++ " argument(s);"

theorem wrongArity_detail (name : String) (arity min : Nat) (max : Option Nat) :
    (wrongArity name arity min max).detail
      = arityCall name arity ++ (" expected " ++ arityRange min max) := by
  have hwords : " argument(s); expected " = " argument(s);" ++ " expected " := by decide
  have h : (wrongArity name arity min max).detail
      = "function \"" ++ name ++ "\" cannot be called with " ++ toString arity
        ++ " argument(s); expected " ++ arityRange min max := rfl
  rw [h, hwords, arityCall]
  simp only [String.append_assoc]

/-- One ends in a word, the other in a number. -/
theorem functionNotFound_detail_ne :
    (functionNotFound name).detail ≠ (wrongArity name' arity min max).detail := by
  intro h
  have hword : (functionNotFound name).detail.toList.getLast? = some 'd' := by
    show ("function \"" ++ name ++ "\" not found").toList.getLast? = some 'd'
    rw [String.toList_append, List.getLast?_append]
    simp
  obtain ⟨before, n, hrange⟩ := exists_append_toString min max
  rw [h, wrongArity_detail, hrange, ← String.append_assoc, ← String.append_assoc,
    String.toList_append, List.getLast?_append,
    List.getLast?_eq_some_getLast (toString_toList_ne_nil n)] at hword
  have hmem := List.getLast_mem (toString_toList_ne_nil n)
  rw [Option.some.inj hword] at hmem
  exact absurd (isDigit_of_mem_toString hmem) (by decide)

theorem arityCall_inj (h : arityCall name arity = arityCall name' arity') :
    name = name' ∧ arity = arity' := by
  obtain ⟨hname, harity⟩ :=
    append_toString_inj (by simp) (by simp) ((String.append_left_inj _).mp h)
  exact ⟨(String.append_right_inj _).mp ((String.append_left_inj _).mp hname), harity⟩

theorem wrongArity_detail_inj
    (h : (wrongArity name arity min max).detail = (wrongArity name' arity' min' max').detail) :
    name = name' ∧ arity = arity' ∧ min = min' ∧ max = max' := by
  -- The range holds no semicolon, so the last one of the message stands before it.
  have hrun : ∀ {min : Nat} {max : Option Nat},
      ∀ c ∈ (" expected " ++ arityRange min max).toList, decide (c ≠ ';') = true := by
    intro min max c hc
    refine decide_eq_true ?_
    rintro rfl
    rcases List.mem_append.mp (String.toList_append ▸ hc) with hc | hc
    · simp at hc
    · exact semicolon_notMem_arityRange min max hc
  rw [wrongArity_detail, wrongArity_detail] at h
  obtain ⟨hcall, hrange⟩ :=
    append_inj_of_stop_end hrun hrun (by simp [arityCall]) (by simp [arityCall]) h
  obtain ⟨rfl, rfl⟩ := arityCall_inj hcall
  obtain ⟨rfl, rfl⟩ := arityRange_inj ((String.append_right_inj _).mp hrange)
  exact ⟨rfl, rfl, rfl, rfl⟩

theorem formatSyntax_detail_inj
    (h : (formatSyntax template position fault).detail
      = (formatSyntax template' position' fault').detail) :
    template = template' ∧ position = position' ∧ fault = fault' := by
  have hlist : "invalid format template " ++ Text.quote template ++ " at offset "
        ++ toString position ++ ": " ++ fault.message
      = "invalid format template " ++ Text.quote template' ++ " at offset "
        ++ toString position' ++ ": " ++ fault'.message := h
  simp only [String.append_assoc] at hlist
  obtain ⟨htemplate, hrest⟩ := Text.quote_append_inj ((String.append_right_inj _).mp hlist)
  have hnumber := (String.append_right_inj _).mp hrest
  obtain ⟨hposition, hrest⟩ := toString_append_inj (by simp) (by simp) hnumber
  have hfault := (String.append_right_inj _).mp hrest
  exact ⟨htemplate, hposition, TemplateFault.message_inj hfault⟩

theorem detail_inj {error other : CallError} (hcode : error.code = other.code)
    (h : error.detail = other.detail) : error = other := by
  rcases error with name | ⟨name, arity, min, max⟩ | ⟨template, position, fault⟩ <;>
    rcases other with name' | ⟨name', arity', min', max'⟩ | ⟨template', position', fault'⟩ <;>
    try cases hcode
  · rw [functionNotFound_detail_inj h]
  · exact absurd h functionNotFound_detail_ne
  · exact absurd h.symm functionNotFound_detail_ne
  · obtain ⟨rfl, rfl, rfl, rfl⟩ := wrongArity_detail_inj h
    rfl
  · obtain ⟨rfl, rfl, rfl⟩ := formatSyntax_detail_inj h
    rfl

end Detail

/-- The two codes are equally long. -/
theorem detail_and_code_of_message {error other : CallError} (h : error.message = other.message) :
    error.detail = other.detail ∧ error.code = other.code := by
  have hlist := congrArg String.toList h
  have hlength : ∀ code : ErrorCode, code.text.toList.length = 12 := by
    intro code
    cases code <;> simp [ErrorCode.text]
  simp only [message, String.toList_append, List.append_assoc] at hlist
  obtain ⟨hdetail, hcode⟩ := List.append_inj' hlist (by simp [hlength])
  obtain ⟨hcode, -⟩ := List.append_inj (List.append_cancel_left hcode)
    ((hlength _).trans (hlength _).symm)
  refine ⟨String.toList_inj.mp hdetail, ?_⟩
  rcases hc : error.code <;> rcases hc' : other.code <;> simp [hc, hc', ErrorCode.text] at hcode ⊢

/-- No two errors have the same message. -/
theorem message_eq_iff (error other : CallError) :
    error.message = other.message ↔ error = other := by
  constructor
  · intro h
    obtain ⟨hdetail, hcode⟩ := detail_and_code_of_message h
    exact detail_inj hcode hdetail
  · rintro rfl
    rfl

end CallError

end PathFunctions
