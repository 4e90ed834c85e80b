import PathFunctions.Proofs.Literals
import PathFunctions.Proofs.Scan

/-!
# The language of templates

Reading a template succeeds exactly on the texts of token sequences, each of which is the text of
one sequence only. The segments are then what its tokens stand for, with the characters between
placeholders joined to maximal literals (`parse_eq_ok_iff`). Any other text is tokens followed by a
stuck text, and the fault is reported where that starts (`parse_eq_error_iff`).
-/

namespace PathFunctions.Template

theorem utf8Length_toList (text : String) : Text.utf8Length text.toList = text.utf8ByteSize := by
  rw [← Text.utf8ByteSize_ofList, String.ofList_toList]

theorem parse_eq_ok_iff {source : String} {template : Template} :
    parse source = .ok template ↔ ∃ tokens, source.toList = spelling tokens
      ∧ template = ⟨source, mergeRuns [] (piecesFrom 0 tokens)⟩ := by
  unfold parse
  constructor
  · intro h
    split at h
    · rename_i pieces hscan
      cases h
      obtain ⟨tokens, htext, rfl⟩ := scan_eq_ok_iff.mp hscan
      exact ⟨tokens, htext, rfl⟩
    · cases h
  · rintro ⟨tokens, htext, rfl⟩
    rw [scan_eq_ok_iff.mpr ⟨tokens, htext, rfl⟩]

theorem source_of_parse {source : String} {template : Template}
    (h : parse source = .ok template) : template.source = source := by
  obtain ⟨tokens, -, rfl⟩ := parse_eq_ok_iff.mp h
  rfl

theorem parse_eq_error_iff {source : String} {error : CallError} :
    parse source = .error error ↔ ∃ tokens rest fault,
      source.toList = spelling tokens ++ rest ∧ Stuck rest fault
        ∧ error = .formatSyntax source (Text.utf8Length (spelling tokens)) fault := by
  unfold parse
  constructor
  · intro h
    split at h
    · cases h
    · rename_i place fault hscan
      cases h
      obtain ⟨tokens, rest, htext, rfl, hstuck⟩ := scan_eq_error_iff.mp hscan
      exact ⟨tokens, rest, fault, htext, hstuck, by rw [Nat.zero_add]⟩
  · rintro ⟨tokens, rest, fault, htext, hstuck, rfl⟩
    rw [scan_eq_error_iff.mpr ⟨tokens, rest, htext, rfl, hstuck⟩, Nat.zero_add]

/-- Whether a text reads as a template. -/
def Reads (source : String) : Prop := ∃ template, parse source = .ok template

theorem reads_iff {source : String} :
    Reads source ↔ ∃ tokens, source.toList = spelling tokens := by
  constructor
  · rintro ⟨template, h⟩
    obtain ⟨tokens, htext, -⟩ := parse_eq_ok_iff.mp h
    exact ⟨tokens, htext⟩
  · rintro ⟨tokens, htext⟩
    exact ⟨_, parse_eq_ok_iff.mpr ⟨tokens, htext, rfl⟩⟩

theorem eq_openingBraces_of_spelling {token : Token} {tokens : List Token} {cs : List Char}
    (h : spelling (token :: tokens) = '{' :: '{' :: cs) : token = .openingBraces := by
  have hbraces : '{' :: '{' :: cs = Token.openingBraces.text ++ cs := rfl
  rw [spelling_cons, hbraces] at h
  exact (Token.text_append_inj h).1

/-- A text reads as a template exactly if it is the text of some tokens; no two token sequences
have one text, two opening braces being one token wherever a token starts with the first of them;
and the segments are maximal and made of what the tokens stand for, each placeholder with the byte
offset of its opening brace. -/
theorem parse_language (source : String) :
    (Reads source ↔ ∃ tokens, spelling tokens = source.toList)
      ∧ (∀ tokens others, spelling tokens = source.toList → spelling others = source.toList →
        tokens = others)
      ∧ (∀ token tokens cs, spelling (token :: tokens) = '{' :: '{' :: cs →
        token = .openingBraces)
      ∧ ∀ tokens, spelling tokens = source.toList →
        ∃ segments, parse source = .ok ⟨source, segments⟩ ∧ Maximal segments
          ∧ segments.flatMap Segment.pieces = piecesFrom 0 tokens := by
  refine ⟨?_, ?_, ?_, ?_⟩
  · rw [reads_iff]
    exact exists_congr fun _ => eq_comm
  · intro tokens others h h'
    exact spelling_injective (h.trans h'.symm)
  · intro token tokens cs h
    exact eq_openingBraces_of_spelling h
  · intro tokens h
    exact ⟨mergeRuns [] (piecesFrom 0 tokens), parse_eq_ok_iff.mpr ⟨tokens, h.symm, rfl⟩,
      maximal_mergeRuns [] _, pieces_mergeRuns [] _⟩

theorem parse_language_nested :
    ∃ segments, parse "ä\x7b\x7b\x7b00 , -2 :x\x7d\x7d\x7d"
        = .ok ⟨"ä\x7b\x7b\x7b00 , -2 :x\x7d\x7d\x7d", segments⟩
      ∧ Maximal segments ∧ segments.flatMap Segment.pieces
        = [.char 'ä', .char '{', .placeholder ⟨0, -2⟩ 4, .char '}'] :=
  (parse_language _).2.2.2 [.plain 'ä' (by decide) (by decide), .openingBraces,
    .braced ⟨⟨['0', '0'], by decide, by simp, by decide⟩, 1,
      some ⟨1, true, ⟨['2'], by decide, by simp, by decide⟩, 1⟩,
      .specifier ['x'] (by decide)⟩, .closingBraces] rfl

end PathFunctions.Template
