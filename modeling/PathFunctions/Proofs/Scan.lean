import PathFunctions.Proofs.Grammar
import PathFunctions.Template.Printer

/-!
# Scanning reads tokens

Every part of a placeholder is read as it is written, whatever follows the placeholder, and what
is read was written so. A text is therefore a sequence of tokens followed by nothing or by a text
that is stuck, one that scanning gives up at once (`exists_tokens`). Scanning takes the tokens off
one by one (`scan_spelling`) and then succeeds or fails where the stuck text starts
(`scan_eq_ok_iff`, `scan_eq_error_iff`).
-/

namespace PathFunctions.Template

theorem skipSpaces_eq : ∀ cs : List Char, skipSpaces cs = cs.dropWhile (· = ' ')
  | [] => rfl
  | c :: cs => by
    by_cases hc : c = ' '
    · rw [hc, skipSpaces, skipSpaces_eq cs, List.dropWhile_cons_of_pos (by rfl)]
    · rw [List.dropWhile_cons_of_neg (by simpa using hc)]
      unfold skipSpaces
      split
      · rename_i heq
        exact absurd (List.cons.inj heq).1 hc
      · rfl

theorem skipSpaces_append (n : Nat) {rest : List Char} (h : rest.takeWhile (· = ' ') = []) :
    skipSpaces (spaces n ++ rest) = rest := by
  rw [skipSpaces_eq]
  exact dropWhile_append_stop (fun c hc => decide_eq_true (mem_spaces hc)) h

theorem exists_spaces (cs : List Char) : ∃ n, cs = spaces n ++ skipSpaces cs := by
  refine ⟨(cs.takeWhile (· = ' ')).length, ?_⟩
  have hrun : spaces (cs.takeWhile (· = ' ')).length = cs.takeWhile (· = ' ') := by
    refine (List.eq_replicate_of_mem fun c hc => ?_).symm
    exact of_decide_eq_true (List.mem_takeWhile_imp (p := (· = ' ')) hc)
  rw [hrun, skipSpaces_eq, List.takeWhile_append_dropWhile]

theorem readMinus_sign (negative : Bool) (numeral : Numeral) (rest : List Char) :
    readMinus (sign negative ++ (numeral.digits ++ rest))
      = (negative, numeral.digits ++ rest) := by
  cases negative
  · unfold readMinus
    split
    · rename_i heq
      exact absurd heq (numeral.append_ne_cons rfl _ _)
    · rfl
  · rfl

theorem exists_sign (cs : List Char) : cs = sign (readMinus cs).1 ++ (readMinus cs).2 := by
  unfold readMinus
  split <;> rfl

theorem readAlignment_widthText (width : Option Width) {rest : List Char}
    (hs : rest.takeWhile (· = ' ') = []) (hd : rest.takeWhile Char.isDigit = [])
    (hc : ∀ cs, rest ≠ ',' :: cs) :
    readAlignment (widthText width ++ rest)
      = .ok ((width.map Width.alignment).getD 0, rest) := by
  rcases width with _ | ⟨lead, negative, numeral, trail⟩
  · unfold readAlignment
    split
    · rename_i heq
      exact absurd heq (hc _)
    · rfl
  · have htext : widthText (some ⟨lead, negative, numeral, trail⟩) ++ rest
        = ',' :: (spaces lead ++ (sign negative
          ++ (numeral.digits ++ (spaces trail ++ rest)))) := by
      simp [widthText, Width.text]
    rw [htext]
    unfold readAlignment
    simp only [skipSpaces_append lead (stop_signed negative numeral (spaces trail ++ rest)),
      readMinus_sign, readNumber_append numeral (stop_spaces rfl hd trail),
      skipSpaces_append trail hs]
    rfl

theorem exists_width {cs rest : List Char} {alignment : Int}
    (h : readAlignment cs = .ok (alignment, rest)) :
    ∃ width : Option Width, cs = widthText width ++ rest
      ∧ (width.map Width.alignment).getD 0 = alignment := by
  unfold readAlignment at h
  split at h
  · rename_i ds
    obtain ⟨lead, hlead⟩ := exists_spaces ds
    have hsign := exists_sign (skipSpaces ds)
    simp only at h
    split at h
    · rename_i value after hn
      obtain ⟨numeral, hnum, rfl⟩ := exists_numeral hn
      obtain ⟨trail, htrail⟩ := exists_spaces after
      simp only [Except.ok.injEq, Prod.mk.injEq] at h
      obtain ⟨rfl, rfl⟩ := h
      refine ⟨some ⟨lead, (readMinus (skipSpaces ds)).1, numeral, trail⟩, ?_, rfl⟩
      simp only [widthText, Width.text, List.cons_append, List.append_assoc]
      rw [← htrail, ← hnum, ← hsign, ← hlead]
    · cases h
    · cases h
  · simp only [Except.ok.injEq, Prod.mk.injEq] at h
    obtain ⟨rfl, rfl⟩ := h
    exact ⟨none, rfl, rfl⟩

theorem skipSpecifier_append : ∀ {text : List Char} (rest : List Char), '}' ∉ text →
    skipSpecifier (text ++ '}' :: rest) = some rest
  | [], rest, _ => rfl
  | c :: text, rest, h => by
    rw [List.mem_cons, not_or] at h
    rw [List.cons_append, skipSpecifier, if_neg (Ne.symm h.1), skipSpecifier_append rest h.2]

theorem skipSpecifier_eq_none_iff : ∀ {cs : List Char}, skipSpecifier cs = none ↔ '}' ∉ cs
  | [] => by simp [skipSpecifier]
  | c :: cs => by
    by_cases hc : c = '}'
    · simp [skipSpecifier, hc]
    · rw [skipSpecifier, if_neg hc, skipSpecifier_eq_none_iff, List.mem_cons, not_or]
      exact ⟨fun h => ⟨Ne.symm hc, h⟩, fun h => h.2⟩

theorem exists_specifier : ∀ {cs rest : List Char}, skipSpecifier cs = some rest →
    ∃ text, '}' ∉ text ∧ cs = text ++ '}' :: rest
  | c :: cs, rest, h => by
    by_cases hc : c = '}'
    · rw [skipSpecifier, if_pos hc, Option.some.injEq] at h
      exact ⟨[], List.not_mem_nil, by rw [hc, h, List.nil_append]⟩
    · rw [skipSpecifier, if_neg hc] at h
      obtain ⟨text, hn, rfl⟩ := exists_specifier h
      exact ⟨c :: text, by simp [hn, Ne.symm hc], rfl⟩

theorem readEnd_text (ending : Ending) (rest : List Char) :
    readEnd (ending.text ++ rest) = .ok rest := by
  rcases ending with _ | ⟨text, hn⟩
  · rfl
  · simp only [Ending.text, List.cons_append, List.append_assoc, List.nil_append, readEnd,
      skipSpecifier_append rest hn]

theorem exists_ending {cs rest : List Char} (h : readEnd cs = .ok rest) :
    ∃ ending : Ending, cs = ending.text ++ rest := by
  unfold readEnd at h
  split at h
  · cases h
    exact ⟨.brace, rfl⟩
  · split at h
    · rename_i hs
      cases h
      obtain ⟨text, hn, rfl⟩ := exists_specifier hs
      exact ⟨.specifier text hn, by simp [Ending.text]⟩
    · cases h
  · cases h

/-- After a good index the width is read and then the end. -/
theorem readPlaceholder_of_number {cs rest : List Char} {index : Nat}
    (h : readNumber cs = .number index rest) :
    readPlaceholder cs =
      match readAlignment (skipSpaces rest) with
      | .error fault => .error fault
      | .ok (alignment, tail) => (readEnd tail).map (⟨index, alignment⟩, ·) := by
  unfold readPlaceholder
  rw [h]
  simp only
  rcases readAlignment (skipSpaces rest) with fault | ⟨alignment, tail⟩
  · rfl
  · rcases hend : readEnd tail with fault | left <;>
      simp only [bind, Except.bind, hend, pure, Except.pure, Except.map]

theorem readPlaceholder_text (field : Field) (rest : List Char) :
    readPlaceholder (field.text ++ rest) = .ok (field.placeholder, rest) := by
  obtain ⟨index, trail, width, ending⟩ := field
  have hstop : ∀ {p : Char → Bool}, p '}' = false → p ':' = false →
      (ending.text ++ rest).takeWhile p = [] := fun hb hc => stop_ending hb hc ending rest
  have hcomma : ∀ cs, ending.text ++ rest ≠ ',' :: cs :=
    ending.append_ne_cons (by decide) (by decide) rest
  simp only [Field.text, List.append_assoc]
  rw [readPlaceholder_of_number (readNumber_append index
      (stop_spaces rfl (stop_widthText rfl (hstop rfl rfl) width) trail)),
    skipSpaces_append trail (stop_widthText rfl (hstop rfl rfl) width),
    readAlignment_widthText width (hstop rfl rfl) (hstop rfl rfl) hcomma]
  simp only [readEnd_text]
  rfl

theorem exists_field {cs rest : List Char} {hole : Placeholder}
    (h : readPlaceholder cs = .ok (hole, rest)) :
    ∃ field : Field, cs = field.text ++ rest ∧ field.placeholder = hole := by
  rcases hn : readNumber cs with _ | _ | ⟨value, after⟩
  · unfold readPlaceholder at h
    rw [hn] at h
    cases h
  · unfold readPlaceholder at h
    rw [hn] at h
    cases h
  · rw [readPlaceholder_of_number hn] at h
    obtain ⟨index, rfl, rfl⟩ := exists_numeral hn
    obtain ⟨trail, htrail⟩ := exists_spaces after
    rcases ha : readAlignment (skipSpaces after) with fault | ⟨alignment, tail⟩ <;> rw [ha] at h
    · cases h
    obtain ⟨width, hwidth, rfl⟩ := exists_width ha
    rcases he : readEnd tail with fault | left <;> simp only [he, Except.map] at h <;> cases h
    obtain ⟨ending, rfl⟩ := exists_ending he
    refine ⟨⟨index, trail, width, ending⟩, ?_, rfl⟩
    simp only [Field.text, List.append_assoc]
    rw [← hwidth, ← htrail]

theorem scan_opening {cs : List Char} (h : ∀ ds, cs ≠ '{' :: ds) (position : Nat) :
    scan position ('{' :: cs) =
      match readPlaceholder cs with
      | .error fault => .error (position, fault)
      | .ok (hole, rest) =>
        (scan (position + 1 + (Text.utf8Length cs - Text.utf8Length rest)) rest).map
          (.placeholder hole position :: ·) := by
  rw [scan]
  · split <;> rename_i hr <;> simp only [hr]
  · exact h

theorem scan_closing {cs : List Char} (h : ∀ ds, cs ≠ '}' :: ds) (position : Nat) :
    scan position ('}' :: cs) = .error (position, .unmatchedClosingBrace) := by
  rw [scan]
  exact h

theorem scan_text_append (token : Token) (position : Nat) (rest : List Char) :
    scan position (token.text ++ rest)
      = (scan (position + Text.utf8Length token.text) rest).map (token.piece position :: ·) := by
  rcases token with ⟨c, ho, hc⟩ | _ | _ | field
  · rw [Token.text, List.singleton_append, scan_plain ho hc]
    rfl
  · rw [Token.text, List.cons_append, List.singleton_append, scan]
    rfl
  · rw [Token.text, List.cons_append, List.singleton_append, scan]
    rfl
  · have hlen : Text.utf8Length (field.text ++ rest) - Text.utf8Length rest
        = Text.utf8Length field.text := by
      rw [Text.utf8Length_append]
      omega
    rw [Token.text, List.cons_append, scan_opening (field.text_ne_brace rest),
      readPlaceholder_text]
    simp only [hlen]
    rw [Text.utf8Length, ← Nat.add_assoc]
    rfl

theorem scan_spelling : ∀ (tokens : List Token) (position : Nat) (rest : List Char),
    scan position (spelling tokens ++ rest)
      = (scan (position + Text.utf8Length (spelling tokens)) rest).map
          (piecesFrom position tokens ++ ·)
  | [], position, rest => by
    show scan position rest = (scan position rest).map ([] ++ ·)
    rcases scan position rest with error | pieces <;> rfl
  | token :: tokens, position, rest => by
    rw [spelling_cons, List.append_assoc, scan_text_append, scan_spelling tokens,
      Text.utf8Length_append, Nat.add_assoc]
    rcases scan (position + (Text.utf8Length token.text + Text.utf8Length (spelling tokens))) rest
      with error | pieces <;> rfl

/-- No token starts the text, and this is why. -/
def Stuck (text : List Char) (fault : TemplateFault) : Prop :=
  ∀ position, scan position text = .error (position, fault)

theorem token_or_stuck : ∀ {text : List Char}, text ≠ [] →
    (∃ (token : Token) (rest : List Char), text = token.text ++ rest)
      ∨ ∃ fault, Stuck text fault
  | [], h => absurd rfl h
  | c :: cs, _ => by
    by_cases ho : c = '{'
    · subst ho
      by_cases hd : ∃ ds, cs = '{' :: ds
      · obtain ⟨ds, rfl⟩ := hd
        exact .inl ⟨.openingBraces, ds, rfl⟩
      have hscan := scan_opening fun ds h => hd ⟨ds, h⟩
      rcases hr : readPlaceholder cs with fault | ⟨hole, rest⟩
      · refine .inr ⟨fault, fun position => ?_⟩
        rw [hscan, hr]
      · obtain ⟨field, rfl, -⟩ := exists_field hr
        exact .inl ⟨.braced field, rest, rfl⟩
    by_cases hc : c = '}'
    · subst hc
      by_cases hd : ∃ ds, cs = '}' :: ds
      · obtain ⟨ds, rfl⟩ := hd
        exact .inl ⟨.closingBraces, ds, rfl⟩
      · exact .inr ⟨.unmatchedClosingBrace, scan_closing fun ds h => hd ⟨ds, h⟩⟩
    · exact .inl ⟨.plain c ho hc, cs, rfl⟩

/-- A text is cut into tokens and, where that ends early, a stuck text. -/
theorem exists_tokens (text : List Char) :
    ∃ (tokens : List Token) (rest : List Char), text = spelling tokens ++ rest
      ∧ (rest = [] ∨ ∃ fault, Stuck rest fault) := by
  by_cases hne : text = []
  · exact ⟨[], [], by rw [hne]; rfl, .inl rfl⟩
  rcases token_or_stuck hne with ⟨token, rest, rfl⟩ | hstuck
  · have hlt : rest.length < (token.text ++ rest).length := by
      have := List.length_pos_iff.mpr token.text_ne_nil
      rw [List.length_append]
      omega
    obtain ⟨tokens, left, rfl, hleft⟩ := exists_tokens rest
    exact ⟨token :: tokens, left, by rw [spelling_cons, List.append_assoc], hleft⟩
  · exact ⟨[], text, rfl, .inr hstuck⟩
termination_by text.length

theorem scan_eq_ok_iff {text : List Char} {position : Nat} {pieces : List Piece} :
    scan position text = .ok pieces
      ↔ ∃ tokens, text = spelling tokens ∧ pieces = piecesFrom position tokens := by
  constructor
  · intro h
    obtain ⟨tokens, rest, rfl, rfl | ⟨fault, hstuck⟩⟩ := exists_tokens text
    · rw [scan_spelling, scan] at h
      simp only [Except.map, List.append_nil, Except.ok.injEq] at h
      exact ⟨tokens, List.append_nil _, h.symm⟩
    · rw [scan_spelling, hstuck] at h
      cases h
  · rintro ⟨tokens, rfl, rfl⟩
    have h := scan_spelling tokens position []
    rw [List.append_nil, scan] at h
    rw [h]
    simp only [Except.map, List.append_nil]

theorem scan_eq_error_iff {text : List Char} {position place : Nat} {fault : TemplateFault} :
    scan position text = .error (place, fault)
      ↔ ∃ tokens rest, text = spelling tokens ++ rest
        ∧ place = position + Text.utf8Length (spelling tokens) ∧ Stuck rest fault := by
  constructor
  · intro h
    obtain ⟨tokens, rest, rfl, rfl | ⟨fault', hstuck⟩⟩ := exists_tokens text
    · rw [scan_spelling, scan] at h
      cases h
    · rw [scan_spelling, hstuck] at h
      simp only [Except.map, Except.error.injEq, Prod.mk.injEq] at h
      obtain ⟨rfl, rfl⟩ := h
      exact ⟨tokens, rest, rfl, rfl, hstuck⟩
  · rintro ⟨tokens, rest, rfl, rfl, hstuck⟩
    rw [scan_spelling, hstuck]
    rfl

end PathFunctions.Template
