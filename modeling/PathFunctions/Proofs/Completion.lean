import PathFunctions.Proofs.Fault

/-!
# Texts cut short

More text after one that does not read as a template either completes it or changes nothing. Each
reader answers for good as soon as something is left unread, so a fault is final unless the text
is over within a placeholder, at a point from which the placeholder can go on (`CutOff`), or after
the first of two closing braces (`Stuck.cutOff_or_append`). No longer text has its fault earlier,
since the tokens before the fault are read as before.
-/

namespace PathFunctions.Template

/-- What follows the opening brace of a placeholder that is over too early: nothing, an index and a
comma with no digit of the width yet, all that comes before the end, or part of a specifier. -/
inductive CutOff : List Char → Prop
  | opening : CutOff []
  | comma (index : Numeral) (trail lead : Nat) (negative : Bool) :
    CutOff (index.digits ++ (spaces trail ++ ',' :: (spaces lead ++ sign negative)))
  | ending (index : Numeral) (trail : Nat) (width : Option Width) :
    CutOff (index.digits ++ (spaces trail ++ widthText width))
  | specifier (index : Numeral) (trail : Nat) (width : Option Width) (text : List Char)
    (noBrace : '}' ∉ text) :
    CutOff (index.digits ++ (spaces trail ++ (widthText width ++ ':' :: text)))

section Readers

variable {cs : List Char}

theorem skipSpaces_append_of_ne_nil (h : skipSpaces cs ≠ []) (more : List Char) :
    skipSpaces (cs ++ more) = skipSpaces cs ++ more := by
  rw [skipSpaces_eq] at h
  rw [skipSpaces_eq, skipSpaces_eq, List.dropWhile_append,
    if_neg (by simpa using h)]

theorem readMinus_append_of_ne_nil (h : cs ≠ []) (more : List Char) :
    readMinus (cs ++ more) = ((readMinus cs).1, (readMinus cs).2 ++ more) := by
  obtain ⟨c, tail, rfl⟩ := List.exists_cons_of_ne_nil h
  by_cases hc : c = '-'
  · subst hc
    rfl
  · simp [readMinus, hc]

/-- Whether there is a minus sign is settled once a character comes after it. -/
theorem readMinus_skipSpaces_append (h : (readMinus (skipSpaces cs)).2 ≠ []) (more : List Char) :
    readMinus (skipSpaces (cs ++ more))
      = ((readMinus (skipSpaces cs)).1, (readMinus (skipSpaces cs)).2 ++ more) := by
  have hne : skipSpaces cs ≠ [] := by
    intro hnil
    rw [hnil] at h
    exact h rfl
  rw [skipSpaces_append_of_ne_nil hne, readMinus_append_of_ne_nil hne]

theorem readDigits_append_none : ∀ {cs : List Char} {value : Nat}, readDigits value cs = none →
    ∀ more, readDigits value (cs ++ more) = none
  | [], _, h, _ => nomatch h
  | c :: cs, value, h, more => by
    simp only [List.cons_append, readDigits] at h ⊢
    split at h
    · rename_i hc
      rw [if_pos hc]
      split at h
      · rename_i hle
        rw [if_pos hle]
      · rename_i hle
        rw [if_neg hle]
        exact readDigits_append_none h more
    · cases h

theorem readDigits_append_some : ∀ {cs : List Char} {value n : Nat} {rest : List Char},
    readDigits value cs = some (n, rest) → rest ≠ [] →
      ∀ more, readDigits value (cs ++ more) = some (n, rest ++ more)
  | [], value, n, rest, h, hne, _ => by
    cases h
    exact absurd rfl hne
  | c :: cs, value, n, rest, h, hne, more => by
    simp only [List.cons_append, readDigits] at h ⊢
    split at h
    · rename_i hc
      rw [if_pos hc]
      split at h
      · cases h
      · rename_i hle
        rw [if_neg hle]
        exact readDigits_append_some h hne more
    · rename_i hc
      rw [if_neg hc]
      cases h
      rfl

theorem readNumber_cons (c : Char) (cs : List Char) :
    readNumber (c :: cs) =
      if c.isDigit then
        match readDigits 0 (c :: cs) with
        | none => .tooLarge
        | some (value, rest) => .number value rest
      else .absent := rfl

theorem readNumber_append_absent (h : readNumber cs = .absent) (hne : cs ≠ [])
    (more : List Char) : readNumber (cs ++ more) = .absent := by
  obtain ⟨c, tail, rfl⟩ := List.exists_cons_of_ne_nil hne
  rw [List.cons_append, readNumber_cons]
  rw [readNumber_cons] at h
  split at h
  · split at h <;> cases h
  · rename_i hc
    rw [if_neg hc]

theorem readNumber_append_tooLarge (h : readNumber cs = .tooLarge) (more : List Char) :
    readNumber (cs ++ more) = .tooLarge := by
  rcases cs with _ | ⟨c, tail⟩
  · cases h
  rw [readNumber_cons] at h
  split at h
  · rename_i hc
    rcases hr : readDigits 0 (c :: tail) with _ | ⟨value, rest⟩ <;> rw [hr] at h
    · rw [List.cons_append, readNumber_cons, if_pos hc, ← List.cons_append,
        readDigits_append_none hr]
    · cases h
  · cases h

theorem readNumber_append_number {value : Nat} {rest : List Char}
    (h : readNumber cs = .number value rest) (hne : rest ≠ []) (more : List Char) :
    readNumber (cs ++ more) = .number value (rest ++ more) := by
  rcases cs with _ | ⟨c, tail⟩
  · cases h
  rw [readNumber_cons] at h
  split at h
  · rename_i hc
    rcases hr : readDigits 0 (c :: tail) with _ | ⟨value', rest'⟩ <;> rw [hr] at h <;> cases h
    rw [List.cons_append, readNumber_cons, if_pos hc, ← List.cons_append,
      readDigits_append_some hr hne]
  · cases h

theorem readAlignment_append_ok {alignment : Int} {rest : List Char}
    (h : readAlignment cs = .ok (alignment, rest)) (hne : rest ≠ []) (more : List Char) :
    readAlignment (cs ++ more) = .ok (alignment, rest ++ more) := by
  by_cases hcomma : ∃ ds, cs = ',' :: ds
  · obtain ⟨ds, rfl⟩ := hcomma
    simp only [readAlignment] at h
    split at h
    · rename_i width after hn
      cases h
      have hafter : after ≠ [] := by
        rintro rfl
        exact hne rfl
      have hdigits : (readMinus (skipSpaces ds)).2 ≠ [] := by
        intro hnil
        rw [hnil] at hn
        cases hn
      simp only [List.cons_append, readAlignment, readMinus_skipSpaces_append hdigits,
        readNumber_append_number hn hafter, skipSpaces_append_of_ne_nil hne]
    · cases h
    · cases h
  · have hother : ∀ ds, cs ≠ ',' :: ds := fun ds hds => hcomma ⟨ds, hds⟩
    rw [readAlignment_other hother] at h
    cases h
    obtain ⟨c, tail, rfl⟩ := List.exists_cons_of_ne_nil hne
    refine readAlignment_other fun ds hds => ?_
    exact hother tail (by rw [(List.cons.inj hds).1])

/-- An alignment that fails is over before a digit of its width, or fails whatever follows. -/
theorem readAlignment_append_error {fault : TemplateFault}
    (h : readAlignment cs = .error fault) :
    (∃ lead negative, cs = ',' :: (spaces lead ++ sign negative))
      ∨ ∀ more, readAlignment (cs ++ more) = .error fault := by
  by_cases hcomma : ∃ ds, cs = ',' :: ds
  · obtain ⟨ds, rfl⟩ := hcomma
    by_cases hdigits : (readMinus (skipSpaces ds)).2 = []
    · obtain ⟨lead, hlead⟩ := exists_spaces ds
      have hsign := exists_sign (skipSpaces ds)
      rw [hdigits, List.append_nil] at hsign
      refine .inl ⟨lead, (readMinus (skipSpaces ds)).1, ?_⟩
      rw [← hsign, ← hlead]
    · refine .inr fun more => ?_
      simp only [readAlignment] at h
      simp only [List.cons_append, readAlignment, readMinus_skipSpaces_append hdigits]
      split at h
      · cases h
      · rename_i hn
        cases h
        simp only [readNumber_append_absent hn hdigits]
      · rename_i hn
        cases h
        simp only [readNumber_append_tooLarge hn]
  · rw [readAlignment_other fun ds hds => hcomma ⟨ds, hds⟩] at h
    cases h

/-- An end that fails is over before it or within a specifier, or fails whatever follows. -/
theorem readEnd_append_error {fault : TemplateFault} (h : readEnd cs = .error fault) :
    cs = [] ∨ (∃ text, '}' ∉ text ∧ cs = ':' :: text)
      ∨ ∀ more, readEnd (cs ++ more) = .error fault := by
  obtain ⟨rfl, hnil | ⟨c, ds, rfl, hb, hc⟩ | ⟨ds, rfl, hnone⟩⟩ := readEnd_error h
  · exact .inl hnil
  · refine .inr (.inr fun more => ?_)
    simp [readEnd, hb, hc]
  · exact .inr (.inl ⟨ds, hnone, rfl⟩)

/-- After a good index a placeholder that fails is cut off, or fails whatever follows. -/
theorem readPlaceholder_append_error_of_number {fault : TemplateFault} {index : Nat}
    {after : List Char} (hn : readNumber cs = .number index after)
    (h : readPlaceholder cs = .error fault) :
    CutOff cs ∨ ∀ more, readPlaceholder (cs ++ more) = .error fault := by
  obtain ⟨numeral, hcs, rfl⟩ := exists_numeral hn
  obtain ⟨trail, htrail⟩ := exists_spaces after
  by_cases hskip : skipSpaces after = []
  · left
    rw [hcs, htrail, hskip]
    exact .ending numeral trail none
  -- The index and the spaces after it are settled, so the width is read from the same point.
  have hafter : after ≠ [] := by
    rintro rfl
    exact hskip rfl
  have hmore := fun more => readPlaceholder_of_number (readNumber_append_number hn hafter more)
  simp only [skipSpaces_append_of_ne_nil hskip] at hmore
  rw [readPlaceholder_of_number hn] at h
  rcases ha : readAlignment (skipSpaces after) with fault' | ⟨alignment, tail⟩ <;> rw [ha] at h
  · cases h
    rcases readAlignment_append_error ha with ⟨lead, negative, hcomma⟩ | herror
    · left
      rw [hcs, htrail, hcomma]
      exact .comma numeral trail lead negative
    · exact .inr fun more => by rw [hmore, herror]
  obtain ⟨width, hwidth, -⟩ := exists_width ha
  have hend : readEnd tail = .error fault := by
    rcases he : readEnd tail with fault' | rest <;> simp only [he, Except.map] at h <;> cases h
    rfl
  rw [hcs, htrail, hwidth]
  by_cases htail : tail = []
  · left
    rw [htail, List.append_nil]
    exact .ending numeral trail width
  rcases readEnd_append_error hend with hnil | ⟨text, hnone, rfl⟩ | herror
  · exact absurd hnil htail
  · exact .inl (.specifier numeral trail width text hnone)
  · refine .inr fun more => ?_
    rw [← hwidth, ← htrail, ← hcs, hmore, readAlignment_append_ok ha htail]
    simp only [herror, Except.map]

/-- A placeholder that fails is cut off, or fails whatever follows. -/
theorem readPlaceholder_append_error {fault : TemplateFault}
    (h : readPlaceholder cs = .error fault) :
    CutOff cs ∨ ∀ more, readPlaceholder (cs ++ more) = .error fault := by
  rcases hn : readNumber cs with _ | _ | ⟨index, after⟩
  · by_cases hnil : cs = []
    · exact .inl (hnil ▸ .opening)
    · refine .inr fun more => ?_
      simp only [readPlaceholder, hn] at h
      simp only [readPlaceholder, readNumber_append_absent hn hnil]
      simpa [hnil] using h
  · refine .inr fun more => ?_
    simp only [readPlaceholder, hn] at h
    simp only [readPlaceholder, readNumber_append_tooLarge hn]
    exact h
  · exact readPlaceholder_append_error_of_number hn h

end Readers

/-- A number that completes whatever lacks one. -/
def Numeral.zero : Numeral := ⟨['0'], by decide, by simp, by decide⟩

/-- What is cut off is the beginning of a placeholder, without its end. -/
theorem cutOff_iff {cs : List Char} :
    CutOff cs ↔ ∃ (field : Field) (left : List Char), left ≠ [] ∧ field.text = cs ++ left := by
  constructor
  · intro h
    cases h with
    | opening =>
      refine ⟨⟨.zero, 0, none, .brace⟩, Numeral.zero.digits ++ ['}'], by simp, ?_⟩
      simp [Field.text, widthText, Ending.text, spaces]
    | comma index trail lead negative =>
      refine ⟨⟨index, trail, some ⟨lead, negative, .zero, 0⟩, .brace⟩,
        Numeral.zero.digits ++ ['}'], by simp, ?_⟩
      simp [Field.text, widthText, Width.text, Ending.text, spaces]
    | ending index trail width =>
      refine ⟨⟨index, trail, width, .brace⟩, ['}'], by simp, ?_⟩
      simp [Field.text, Ending.text]
    | specifier index trail width text noBrace =>
      refine ⟨⟨index, trail, width, .specifier text noBrace⟩, ['}'], by simp, ?_⟩
      simp [Field.text, Ending.text]
  -- Were the beginning a placeholder by itself, the longer one would end where it does.
  · rintro ⟨field, left, hne, htext⟩
    have hread := readPlaceholder_text field []
    rw [List.append_nil, htext] at hread
    rcases hr : readPlaceholder cs with fault | ⟨hole, rest⟩
    · rcases readPlaceholder_append_error hr with hcut | herror
      · exact hcut
      · rw [herror] at hread
        cases hread
    · obtain ⟨other, rfl, -⟩ := exists_field hr
      rw [List.append_assoc] at htext
      obtain ⟨-, hnil⟩ := Field.text_append_inj ((List.append_nil _).trans htext)
      exact absurd (List.append_eq_nil_iff.mp hnil.symm).2 hne

/-- A text that is stuck is one closing brace or an opening brace before a placeholder cut off, or
is stuck whatever follows. -/
theorem Stuck.cutOff_or_append {text : List Char} {fault : TemplateFault} (h : Stuck text fault) :
    (text = ['}'] ∨ ∃ cs, text = '{' :: cs ∧ CutOff cs)
      ∨ ∀ more, Stuck (text ++ more) fault := by
  rcases h.cases with ⟨cs, rfl, rfl⟩ | ⟨cs, rfl, hread⟩
  · rcases cs with _ | ⟨c, ds⟩
    · exact .inl (.inl rfl)
    · refine .inr fun more position => scan_closing (fun tail htail => ?_) position
      obtain rfl := (List.cons.inj htail).1
      exact @not_stuck_text_append .closingBraces _ _ h
  -- A second opening brace would make a token of the two.
  · rcases cs with _ | ⟨c, ds⟩
    · exact .inl (.inr ⟨[], rfl, .opening⟩)
    rcases readPlaceholder_append_error hread with hcut | herror
    · exact .inl (.inr ⟨c :: ds, rfl, hcut⟩)
    · refine .inr fun more position => ?_
      have hbrace : ∀ tail, c :: ds ++ more ≠ '{' :: tail := by
        intro tail htail
        obtain rfl := (List.cons.inj htail).1
        exact @not_stuck_text_append .openingBraces _ _ h
      rw [List.cons_append, scan_opening hbrace, herror]

theorem exists_token_of_cutOff {text : List Char}
    (h : text = ['}'] ∨ ∃ cs, text = '{' :: cs ∧ CutOff cs) :
    ∃ (token : Token) (left : List Char), token.text = text ++ left := by
  rcases h with rfl | ⟨cs, rfl, hcut⟩
  · exact ⟨.closingBraces, ['}'], rfl⟩
  · obtain ⟨field, left, -, htext⟩ := cutOff_iff.mp hcut
    exact ⟨.braced field, left, by rw [Token.text, htext, List.cons_append]⟩

section Extensions

variable {source : String} {tokens : List Token} {rest : List Char}

theorem toList_append_of_tokens (h : source.toList = spelling tokens ++ rest) (more : String) :
    (source ++ more).toList = spelling tokens ++ (rest ++ more.toList) := by
  rw [String.toList_append, h, List.append_assoc]

theorem exists_reads_append (h : source.toList = spelling tokens ++ rest)
    (hcut : rest = ['}'] ∨ ∃ cs, rest = '{' :: cs ∧ CutOff cs) :
    ∃ more, Reads (source ++ more) := by
  obtain ⟨token, left, hleft⟩ := exists_token_of_cutOff hcut
  refine ⟨String.ofList left, reads_iff.mpr ⟨tokens ++ [token], ?_⟩⟩
  rw [toList_append_of_tokens h, String.toList_ofList, ← hleft, spelling_append]
  simp [spelling]

theorem parse_append_of_stuck {fault : TemplateFault}
    (h : source.toList = spelling tokens ++ rest) (hstay : ∀ more, Stuck (rest ++ more) fault)
    (more : String) :
    parse (source ++ more)
      = .error (.formatSyntax (source ++ more) (Text.utf8Length (spelling tokens)) fault) :=
  parse_eq_error_iff.mpr ⟨tokens, _, fault, toList_append_of_tokens h more, hstay _, rfl⟩

theorem le_position_of_append {more : String} {error : CallError}
    (h : source.toList = spelling tokens ++ rest) (herror : parse (source ++ more) = .error error) :
    ∃ position fault, error = .formatSyntax (source ++ more) position fault
      ∧ Text.utf8Length (spelling tokens) ≤ position := by
  obtain ⟨others, left, fault, hothers, hleft, rfl⟩ := parse_eq_error_iff.mp herror
  refine ⟨_, fault, rfl, ?_⟩
  obtain ⟨added, rfl⟩ :=
    append_of_stuck hleft (hothers.symm.trans (toList_append_of_tokens h more))
  rw [spelling_append, Text.utf8Length_append]
  exact Nat.le_add_right _ _

end Extensions

/-- A text that does not read as a template either reads as one with some text after it, which is
so exactly if one closing brace or a placeholder cut off is what is left at the fault, or has the
same fault at the same place whatever comes after it; and no text after it moves the fault towards
its beginning. -/
theorem parse_completable_or_final {source : String} {error : CallError}
    (h : parse source = .error error) :
    ∃ (before rest : String) (fault : TemplateFault), source = before ++ rest
      ∧ error = .formatSyntax source before.utf8ByteSize fault
      ∧ Xor (∃ more, Reads (source ++ more))
        (∀ more, parse (source ++ more)
          = .error (.formatSyntax (source ++ more) before.utf8ByteSize fault))
      ∧ ((∃ more, Reads (source ++ more))
        ↔ rest.toList = ['}'] ∨ ∃ cs, rest.toList = '{' :: cs ∧ CutOff cs)
      ∧ ∀ more later, parse (source ++ more) = .error later → ∃ position reason,
        later = .formatSyntax (source ++ more) position reason
          ∧ before.utf8ByteSize ≤ position := by
  obtain ⟨tokens, rest, fault, htext, hstuck, rfl⟩ := parse_eq_error_iff.mp h
  have hexclusive : (∃ more, Reads (source ++ more)) → ¬ ∀ more, parse (source ++ more)
      = .error (.formatSyntax (source ++ more) (Text.utf8Length (spelling tokens)) fault) := by
    rintro ⟨more, template, hok⟩ hall
    rw [hall] at hok
    cases hok
  refine ⟨String.ofList (spelling tokens), String.ofList rest, fault, ?_, ?_⟩
  · rw [← String.ofList_append, ← htext, String.ofList_toList]
  rw [Text.utf8ByteSize_ofList, String.toList_ofList]
  refine ⟨rfl, ?_, ⟨fun hreads => ?_, exists_reads_append htext⟩,
    fun more later hlater => le_position_of_append htext hlater⟩
  · rcases hstuck.cutOff_or_append with hcut | hstay
    · have hreads := exists_reads_append htext hcut
      exact .inl ⟨hreads, hexclusive hreads⟩
    · have hfinal := parse_append_of_stuck htext hstay
      exact .inr ⟨hfinal, fun hreads => hexclusive hreads hfinal⟩
  · rcases hstuck.cutOff_or_append with hcut | hstay
    · exact hcut
    · exact absurd (parse_append_of_stuck htext hstay) (hexclusive hreads)

/-- Where a text is cut in two is settled by the bytes before the cut. -/
theorem append_inj_of_utf8ByteSize {s s' t t' : String} (h : s ++ t = s' ++ t')
    (hsize : s.utf8ByteSize = s'.utf8ByteSize) : s = s' ∧ t = t' := by
  have hbytes := congrArg String.toByteArray h
  rw [String.toByteArray_append, String.toByteArray_append] at hbytes
  obtain rfl : s = s' := String.toByteArray_inj.mp (ByteArray.append_inj_left hbytes hsize)
  exact ⟨rfl, String.append_right_inj s |>.mp h⟩

theorem parse_completable_or_final_width :
    (parse "ä\x7b1, -" = .error (.formatSyntax "ä\x7b1, -" 2 .invalidAlignment)
        ∧ ∃ more, Reads ("ä\x7b1, -" ++ more))
      ∧ parse "ä\x7b1, x" = .error (.formatSyntax "ä\x7b1, x" 2 .invalidAlignment)
        ∧ ∀ more, parse ("ä\x7b1, x" ++ more)
          = .error (.formatSyntax ("ä\x7b1, x" ++ more) 2 .invalidAlignment) := by
  have hsign : parse "ä\x7b1, -" = .error (.formatSyntax "ä\x7b1, -" 2 .invalidAlignment) := by decide +kernel
  have hletter : parse "ä\x7b1, x" = .error (.formatSyntax "ä\x7b1, x" 2 .invalidAlignment) := by
    decide +kernel
  refine ⟨⟨hsign, ?_⟩, hletter, ?_⟩
  · obtain ⟨before, rest, fault, htext, herror, -, hcut, -⟩ := parse_completable_or_final hsign
    have hsize := (CallError.formatSyntax.inj herror).2.1
    obtain ⟨rfl, rfl⟩ := append_inj_of_utf8ByteSize (s := "ä") (t := "\x7b1, -") htext hsize
    exact hcut.mpr (.inr ⟨_, rfl, .comma ⟨['1'], by decide, by simp, by decide⟩ 0 1 true⟩)
  · obtain ⟨before, rest, fault, htext, herror, hxor, hcut, -⟩ :=
      parse_completable_or_final hletter
    have hsize := (CallError.formatSyntax.inj herror).2.1
    obtain ⟨rfl, rfl⟩ := append_inj_of_utf8ByteSize (s := "ä") (t := "\x7b1, x") htext hsize
    rcases hxor with ⟨hreads, -⟩ | ⟨hfinal, -⟩
    · rcases hcut.mp hreads with hbrace | ⟨cs, hcs, hcut⟩
      · cases hbrace
      · obtain ⟨field, left, -, hfield⟩ := cutOff_iff.mp hcut
        obtain rfl := (List.cons.inj hcs).2
        have hread := readPlaceholder_text field []
        rw [List.append_nil, hfield] at hread
        cases hread
    · cases herror
      exact hfinal

end PathFunctions.Template
