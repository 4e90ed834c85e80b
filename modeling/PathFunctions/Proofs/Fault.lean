import PathFunctions.Proofs.Language

/-!
# Where and why reading fails

A text that does not read as a template has a longest beginning that does: no tokens go on into the
text that is stuck (`append_of_stuck`). The reason is that the stuck text is a closing brace alone,
or an opening brace after which the first part of a placeholder that is missing or too large
decides (`faultOf`); digits and spaces are taken as far as they go.
-/

namespace PathFunctions.Template

/-- What follows a run of digits and then spaces. -/
def afterNumber (cs : List Char) : List Char := (cs.dropWhile Char.isDigit).dropWhile (· = ' ')

/-- What follows the spaces after a comma and then a minus sign, if there is one. -/
def afterSign (cs : List Char) : List Char :=
  match cs.dropWhile (· = ' ') with
  | '-' :: digits => digits
  | digits => digits

/-- The run of digits at the start makes a number that is not below the limit. -/
def StartsTooLarge (cs : List Char) : Prop :=
  numberLimit ≤ Nat.ofDigitChars 10 (cs.takeWhile Char.isDigit) 0

instance (cs : List Char) : Decidable (StartsTooLarge cs) :=
  inferInstanceAs (Decidable (numberLimit ≤ _))

/-- The fault of an opening brace with `cs` after it when no token starts there. -/
def openingFault (cs : List Char) : TemplateFault :=
  if cs = [] then .unterminatedPlaceholder
  else if cs.takeWhile Char.isDigit = [] then .missingIndex
  else if StartsTooLarge cs then .indexTooLarge
  else
    match afterNumber cs with
    | ',' :: ds =>
      if (afterSign ds).takeWhile Char.isDigit = [] ∨ StartsTooLarge (afterSign ds)
      then .invalidAlignment
      else .unterminatedPlaceholder
    | _ => .unterminatedPlaceholder

/-- The fault of a text that no token starts. -/
def faultOf : List Char → TemplateFault
  | '}' :: _ => .unmatchedClosingBrace
  | text => openingFault text.tail

/-- Where a placeholder with `cs` after its opening brace has to end. -/
def endPoint (cs : List Char) : List Char :=
  match afterNumber cs with
  | ',' :: ds => afterNumber (afterSign ds)
  | ds => ds

/-- The text is over, goes on with neither a closing brace nor a colon, or has no closing brace
after the colon. -/
def Unended (cs : List Char) : Prop :=
  cs = [] ∨ (∃ c ds, cs = c :: ds ∧ c ≠ '}' ∧ c ≠ ':') ∨ ∃ ds, cs = ':' :: ds ∧ '}' ∉ ds

theorem readEnd_error {cs : List Char} {fault : TemplateFault} (h : readEnd cs = .error fault) :
    fault = .unterminatedPlaceholder ∧ Unended cs := by
  unfold readEnd at h
  split at h
  · cases h
  · split at h <;> cases h
    rename_i hs
    exact ⟨rfl, .inr (.inr ⟨_, rfl, skipSpecifier_eq_none_iff.mp hs⟩)⟩
  · rename_i hb hc
    cases h
    refine ⟨rfl, ?_⟩
    rcases cs with _ | ⟨c, ds⟩
    · exact .inl rfl
    · exact .inr (.inl ⟨c, ds, rfl, fun he => hb ds (by rw [he]), fun he => hc ds (by rw [he])⟩)

theorem readMinus_snd (cs : List Char) : (readMinus (skipSpaces cs)).2 = afterSign cs := by
  rw [skipSpaces_eq, afterSign]
  rcases cs.dropWhile (· = ' ') with _ | ⟨c, digits⟩
  · rfl
  by_cases hc : c = '-'
  · rw [hc]
    rfl
  · simp [readMinus, hc]

theorem readAlignment_comma (ds : List Char) :
    readAlignment (',' :: ds) =
      if (afterSign ds).takeWhile Char.isDigit = [] ∨ StartsTooLarge (afterSign ds)
      then .error .invalidAlignment
      else
        let width := Nat.ofDigitChars 10 ((afterSign ds).takeWhile Char.isDigit) 0
        .ok (if (readMinus (skipSpaces ds)).1 then -(width : Int) else width,
          afterNumber (afterSign ds)) := by
  unfold readAlignment
  simp only [readMinus_snd, readNumber_eq]
  by_cases hempty : (afterSign ds).takeWhile Char.isDigit = []
  · simp only [hempty, true_or, if_true]
  by_cases hlarge : StartsTooLarge (afterSign ds)
  · rw [if_neg hempty, if_pos (show numberLimit ≤ _ from hlarge), if_pos (.inr hlarge)]
  · rw [if_neg hempty, if_neg (show ¬ numberLimit ≤ _ from hlarge),
      if_neg (not_or.mpr ⟨hempty, hlarge⟩)]
    simp only [skipSpaces_eq, afterNumber]

theorem readAlignment_other {cs : List Char} (h : ∀ ds, cs ≠ ',' :: ds) :
    readAlignment cs = .ok (0, cs) := by
  unfold readAlignment
  split
  · rename_i ds
    exact absurd rfl (h ds)
  · rfl

theorem openingFault_of_index {cs : List Char} (hempty : cs.takeWhile Char.isDigit ≠ [])
    (hlarge : ¬ StartsTooLarge cs) :
    openingFault cs =
      match afterNumber cs with
      | ',' :: ds =>
        if (afterSign ds).takeWhile Char.isDigit = [] ∨ StartsTooLarge (afterSign ds)
        then .invalidAlignment
        else .unterminatedPlaceholder
      | _ => .unterminatedPlaceholder := by
  have hnil : cs ≠ [] := by
    rintro rfl
    exact hempty rfl
  rw [openingFault, if_neg hnil, if_neg hempty, if_neg hlarge]

/-- After a good index the fault is the alignment's, or the end's. -/
theorem readPlaceholder_error_of_index {cs : List Char} {fault : TemplateFault}
    (hempty : cs.takeWhile Char.isDigit ≠ []) (hlarge : ¬ StartsTooLarge cs)
    (h : readPlaceholder cs = .error fault) :
    fault = openingFault cs ∧ (fault = .unterminatedPlaceholder → Unended (endPoint cs)) := by
  rw [openingFault_of_index hempty hlarge]
  have hnumber := readNumber_eq cs
  rw [if_neg hempty, if_neg (show ¬ numberLimit ≤ _ from hlarge)] at hnumber
  rw [readPlaceholder_of_number hnumber, skipSpaces_eq, ← afterNumber] at h
  unfold endPoint
  by_cases hcomma : ∃ ds, afterNumber cs = ',' :: ds
  · obtain ⟨ds, hds⟩ := hcomma
    rw [hds, readAlignment_comma] at h
    rw [hds]
    by_cases hbad : (afterSign ds).takeWhile Char.isDigit = [] ∨ StartsTooLarge (afterSign ds)
    · rw [if_pos hbad] at h
      cases h
      exact ⟨(if_pos hbad).symm, fun he => by cases he⟩
    · rw [if_neg hbad] at h
      rcases he : readEnd (afterNumber (afterSign ds)) with fault' | rest <;>
        simp only [he, Except.map] at h <;> cases h
      obtain ⟨rfl, hunended⟩ := readEnd_error he
      exact ⟨(if_neg hbad).symm, fun _ => hunended⟩
  · have hother : ∀ ds, afterNumber cs ≠ ',' :: ds := fun ds hds => hcomma ⟨ds, hds⟩
    rw [readAlignment_other hother] at h
    rcases he : readEnd (afterNumber cs) with fault' | rest <;>
      simp only [he, Except.map] at h <;> cases h
    obtain ⟨rfl, hunended⟩ := readEnd_error he
    split
    · rename_i ds hds
      exact absurd hds (hother ds)
    · exact ⟨rfl, fun _ => hunended⟩

theorem readPlaceholder_error {cs : List Char} {fault : TemplateFault}
    (h : readPlaceholder cs = .error fault) :
    fault = openingFault cs
      ∧ (fault = .unterminatedPlaceholder → cs = [] ∨ Unended (endPoint cs)) := by
  by_cases hempty : cs.takeWhile Char.isDigit = []
  · unfold readPlaceholder at h
    rw [readNumber_eq, if_pos hempty] at h
    rcases cs with _ | ⟨c, ds⟩
    · cases h
      exact ⟨rfl, fun _ => .inl rfl⟩
    · cases h
      rw [openingFault, if_neg (List.cons_ne_nil c ds), if_pos hempty]
      exact ⟨rfl, fun he => by cases he⟩
  by_cases hlarge : StartsTooLarge cs
  · have hnil : cs ≠ [] := by
      rintro rfl
      exact hempty rfl
    unfold readPlaceholder at h
    rw [readNumber_eq, if_neg hempty, if_pos (show numberLimit ≤ _ from hlarge)] at h
    cases h
    rw [openingFault, if_neg hnil, if_neg hempty, if_pos hlarge]
    exact ⟨rfl, fun he => by cases he⟩
  · obtain ⟨hfault, hend⟩ := readPlaceholder_error_of_index hempty hlarge h
    exact ⟨hfault, fun he => .inr (hend he)⟩

theorem utf8Length_pos (token : Token) : 0 < Text.utf8Length token.text := by
  obtain ⟨c, cs, h⟩ := List.exists_cons_of_ne_nil token.text_ne_nil
  have hc := c.utf8Size_pos
  rw [h, Text.utf8Length]
  omega

theorem not_stuck_text_append {token : Token} {rest : List Char} {fault : TemplateFault} :
    ¬ Stuck (token.text ++ rest) fault := by
  intro h
  have hscan := h 0
  rw [scan_text_append] at hscan
  rcases hr : scan (0 + Text.utf8Length token.text) rest with ⟨place, fault'⟩ | pieces <;>
    rw [hr] at hscan
  · simp only [Except.map, Except.error.injEq, Prod.mk.injEq] at hscan
    obtain ⟨rfl, rfl⟩ := hscan
    obtain ⟨tokens, left, -, hplace, -⟩ := scan_eq_error_iff.mp hr
    have := utf8Length_pos token
    omega
  · cases hscan

/-- What a stuck text begins with, and its fault. -/
theorem Stuck.cases {text : List Char} {fault : TemplateFault} (h : Stuck text fault) :
    (∃ cs, text = '}' :: cs ∧ fault = .unmatchedClosingBrace)
      ∨ ∃ cs, text = '{' :: cs ∧ readPlaceholder cs = .error fault := by
  have hnot : ∀ (token : Token) (rest : List Char), text ≠ token.text ++ rest := by
    rintro token rest rfl
    exact not_stuck_text_append h
  rcases text with _ | ⟨c, cs⟩
  · have hnil := h 0
    rw [scan] at hnil
    cases hnil
  by_cases ho : c = '{'
  · subst ho
    have hscan := h 0
    rw [scan_opening fun ds hd => hnot .openingBraces ds (by rw [hd]; rfl)] at hscan
    rcases hr : readPlaceholder cs with fault' | ⟨hole, rest⟩
    · rw [hr] at hscan
      cases hscan
      exact .inr ⟨cs, rfl, hr⟩
    · obtain ⟨field, rfl, -⟩ := exists_field hr
      exact absurd rfl (hnot (.braced field) rest)
  by_cases hc : c = '}'
  · subst hc
    have hscan := h 0
    rw [scan_closing fun ds hd => hnot .closingBraces ds (by rw [hd]; rfl)] at hscan
    cases hscan
    exact .inl ⟨cs, rfl, rfl⟩
  · exact absurd rfl (hnot (.plain c ho hc) cs)

/-- Tokens at the start of a text are among those before the point where it is stuck. -/
theorem append_of_stuck : ∀ {tokens others : List Token} {rest more : List Char}
    {fault : TemplateFault}, Stuck rest fault → spelling tokens ++ rest = spelling others ++ more →
      ∃ left, tokens = others ++ left
  | tokens, [], _, _, _, _, _ => ⟨tokens, rfl⟩
  | [], other :: others, rest, more, fault, hstuck, h => by
    have hrest : rest = other.text ++ (spelling others ++ more) := by
      rw [← List.append_assoc, ← spelling_cons, ← h]
      rfl
    rw [hrest] at hstuck
    exact absurd hstuck not_stuck_text_append
  | token :: tokens, other :: others, rest, more, fault, hstuck, h => by
    rw [spelling_cons, spelling_cons, List.append_assoc, List.append_assoc] at h
    obtain ⟨rfl, htail⟩ := Token.text_append_inj h
    obtain ⟨left, rfl⟩ := append_of_stuck hstuck htail
    exact ⟨left, rfl⟩

/-- The error of a text that does not read as a template names the text, the end of the longest
beginning that reads as one, where a brace follows, and the fault of what follows. -/
theorem parse_fault {source : String} {error : CallError} (h : parse source = .error error) :
    ∃ before rest : String, source = before ++ rest
      ∧ error = .formatSyntax source before.utf8ByteSize (faultOf rest.toList)
      ∧ Reads before
      ∧ (∀ longer more : String, source = longer ++ more → Reads longer →
        longer.utf8ByteSize ≤ before.utf8ByteSize)
      ∧ (∃ c cs, rest.toList = c :: cs ∧ (c = '{' ∨ c = '}'))
      ∧ (faultOf rest.toList = .unterminatedPlaceholder →
        rest.toList.tail = [] ∨ Unended (endPoint rest.toList.tail)) := by
  obtain ⟨tokens, rest, fault, htext, hstuck, rfl⟩ := parse_eq_error_iff.mp h
  have hfault : fault = faultOf rest ∧ (∃ c cs, rest = c :: cs ∧ (c = '{' ∨ c = '}'))
      ∧ (fault = .unterminatedPlaceholder → rest.tail = [] ∨ Unended (endPoint rest.tail)) := by
    rcases hstuck.cases with ⟨cs, rfl, rfl⟩ | ⟨cs, rfl, hread⟩
    · exact ⟨rfl, ⟨_, cs, rfl, .inr rfl⟩, fun he => by cases he⟩
    · obtain ⟨hf, hend⟩ := readPlaceholder_error hread
      exact ⟨hf, ⟨_, cs, rfl, .inl rfl⟩, hend⟩
  obtain ⟨rfl, hstart, hend⟩ := hfault
  refine ⟨String.ofList (spelling tokens), String.ofList rest, ?_, ?_, ?_, ?_, ?_, ?_⟩
  · rw [← String.ofList_append, ← htext, String.ofList_toList]
  · rw [Text.utf8ByteSize_ofList, String.toList_ofList]
  · exact reads_iff.mpr ⟨tokens, String.toList_ofList⟩
  · intro longer more hsource hreads
    obtain ⟨others, hothers⟩ := reads_iff.mp hreads
    rw [hsource, String.toList_append, hothers] at htext
    obtain ⟨left, rfl⟩ := append_of_stuck hstuck htext.symm
    rw [Text.utf8ByteSize_ofList, ← utf8Length_toList, hothers, spelling_append,
      Text.utf8Length_append]
    omega
  · rwa [String.toList_ofList]
  · rwa [String.toList_ofList]

theorem parse_fault_width :
    parse "ä\x7b0\x7d\x7b1,x" = .error (.formatSyntax "ä\x7b0\x7d\x7b1,x" 5 .invalidAlignment)
      ∧ ∃ before : String, before.utf8ByteSize = 5 ∧ Reads before
        ∧ ∀ longer more : String, "ä\x7b0\x7d\x7b1,x" = longer ++ more → Reads longer →
          longer.utf8ByteSize ≤ 5 := by
  have hparse : parse "ä\x7b0\x7d\x7b1,x"
      = .error (.formatSyntax "ä\x7b0\x7d\x7b1,x" 5 .invalidAlignment) := by decide +kernel
  obtain ⟨before, rest, -, herror, hreads, hlongest, -, -⟩ := parse_fault hparse
  have hsize : before.utf8ByteSize = 5 := (CallError.formatSyntax.inj herror).2.1.symm
  refine ⟨hparse, before, hsize, hreads, fun longer more hsource hlonger => ?_⟩
  rw [← hsize]
  exact hlongest longer more hsource hlonger

end PathFunctions.Template
