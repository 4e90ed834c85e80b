import PathFunctions.Proofs.Language
import PathFunctions.Proofs.Rendering

/-!
# Which values a template needs

A template renders exactly when there is a value for the highest index it names
(`exists_render_iff`). Otherwise the fault is that of the first placeholder of its text without a
value, whether or not it has the highest index (`exists_token_of_missing`). Values that no
placeholder names make no difference (`render_of_agree`).
-/

namespace PathFunctions.Template

/-- A piece as a segment of its own. -/
def Piece.segment : Piece → Segment
  | .char c => .literal (String.singleton c)
  | .placeholder hole position => .placeholder hole position

/-- The indices that the placeholders name, in their order. -/
def indices (template : Template) : List Nat := template.segments.filterMap Segment.index?

section Order

variable {count place : Nat} {fault : TemplateFault}

theorem firstMissing_literalOf_append (run : List Char) (segments : List Segment) :
    firstMissing count (literalOf run ++ segments) = firstMissing count segments := by
  rw [literalOf]
  split <;> rfl

/-- For what is missing the characters need not be joined. -/
theorem firstMissing_mergeRuns : ∀ (run : List Char) (pieces : List Piece),
    firstMissing count (mergeRuns run pieces) = firstMissing count (pieces.map Piece.segment)
  | run, [] => by
    rw [mergeRuns, ← List.append_nil (literalOf run), firstMissing_literalOf_append, List.map_nil]
  | run, .char c :: pieces => firstMissing_mergeRuns (c :: run) pieces
  | run, .placeholder hole position :: pieces => by
    have ih := firstMissing_mergeRuns [] pieces
    rw [mergeRuns, firstMissing_literalOf_append]
    rw [firstMissing] at ih ⊢
    rw [List.findSome?_cons, ih]
    rfl

theorem braced_of_missing {position : Nat} {token : Token}
    (h : (token.piece position).segment.missing? count = some (place, fault)) :
    ∃ field, token = .braced field ∧ count ≤ field.placeholder.index ∧ place = position
      ∧ fault = .indexOutOfRange field.placeholder.index count := by
  rcases token with _ | _ | _ | field
  · cases h
  · cases h
  · cases h
  · simp only [Token.piece, Piece.segment, Segment.missing?] at h
    split at h <;> cases h
    rename_i hle
    exact ⟨field, rfl, hle, rfl, rfl⟩

/-- The first piece without a value is a token that comes after tokens with values. -/
theorem exists_token_of_missing : ∀ {tokens : List Token} {position : Nat},
    firstMissing count ((piecesFrom position tokens).map Piece.segment) = some (place, fault) →
      ∃ before field after, tokens = before ++ .braced field :: after
        ∧ (∀ other, .braced other ∈ before → other.placeholder.index < count)
        ∧ count ≤ field.placeholder.index
        ∧ place = position + Text.utf8Length (spelling before)
        ∧ fault = .indexOutOfRange field.placeholder.index count
  | [], position, h => nomatch h
  | token :: tokens, position, h => by
    rw [piecesFrom, List.map_cons, firstMissing, List.findSome?_cons] at h
    rcases hm : (token.piece position).segment.missing? count with _ | found <;> rw [hm] at h
    · obtain ⟨before, field, after, rfl, hbefore, hle, rfl, rfl⟩ := exists_token_of_missing h
      refine ⟨token :: before, field, after, rfl, fun other hmem => ?_, hle, ?_, rfl⟩
      · rcases List.mem_cons.mp hmem with rfl | hmem
        · exact missing?_eq_none_iff.mp hm other.placeholder.index rfl
        · exact hbefore other hmem
      · rw [spelling_cons, Text.utf8Length_append, Nat.add_assoc]
    · cases h
      obtain ⟨field, rfl, hle, rfl, rfl⟩ := braced_of_missing hm
      exact ⟨[], field, tokens, rfl, fun other hmem => absurd hmem List.not_mem_nil, hle, rfl, rfl⟩

end Order

section Render

variable {template : Template} {values others : List String} {text : String}

theorem firstMissing_eq_none_iff_indices {count : Nat} :
    firstMissing count template.segments = none ↔ ∀ index ∈ template.indices, index < count := by
  simp only [firstMissing_eq_none_iff, Segment.InRange, indices, List.mem_filterMap]
  constructor
  · rintro h index ⟨segment, hmem, hindex⟩
    exact h segment hmem index hindex
  · exact fun h segment hmem index hindex => h index ⟨segment, hmem, hindex⟩

theorem maxIndex?_lt_iff {count : Nat} :
    (template.maxIndex? = none ∨ ∃ highest, template.maxIndex? = some highest ∧ highest < count)
      ↔ ∀ index ∈ template.indices, index < count := by
  rcases hmax : template.maxIndex? with _ | highest
  · have hnone : template.indices = [] := List.max?_eq_none_iff.mp hmax
    simp [hnone]
  · obtain ⟨hmem, hle⟩ := List.max?_eq_some_iff.mp hmax
    simp only [reduceCtorEq, false_or, Option.some.injEq, exists_eq_left']
    exact ⟨fun h index hi => (hle index hi).trans_lt h, fun h => h highest hmem⟩

theorem exists_render_iff :
    (∃ text, template.render values = .ok text)
      ↔ template.maxIndex? = none
        ∨ ∃ highest, template.maxIndex? = some highest ∧ highest < values.length := by
  rw [maxIndex?_lt_iff, ← firstMissing_eq_none_iff_indices]
  constructor
  · rintro ⟨text, h⟩
    exact (render_eq_ok_iff.mp h).1
  · intro h
    exact ⟨_, render_eq_ok_iff.mpr ⟨h, rfl⟩⟩

theorem block_of_agree {segment : Segment}
    (h : ∀ index, segment.index? = some index → others[index]? = values[index]?) :
    segment.block others = segment.block values := by
  rcases segment with text | ⟨hole, position⟩
  · rfl
  · rw [Segment.block, Segment.block, h hole.index rfl]

theorem render_of_agree (h : template.render values = .ok text)
    (hagree : ∀ index ∈ template.indices, others[index]? = values[index]?) :
    template.render others = .ok text := by
  obtain ⟨hnone, rfl⟩ := render_eq_ok_iff.mp h
  rw [firstMissing_eq_none_iff_indices] at hnone
  refine render_eq_ok_iff.mpr ⟨firstMissing_eq_none_iff_indices.mpr fun index hi => ?_, ?_⟩
  · have hsome := hagree index hi
    rw [List.getElem?_eq_getElem (hnone index hi)] at hsome
    exact (List.getElem?_eq_some_iff.mp hsome).1
  · refine congrArg String.join (List.map_congr_left fun segment hmem => ?_)
    refine (block_of_agree fun index hindex => ?_).symm
    exact hagree index (List.mem_filterMap.mpr ⟨segment, hmem, hindex⟩)

end Render

/-- A template renders exactly if its highest index is below the number of values. If it does not,
the fault is at the opening brace of the first placeholder in its text that has no value, and tells
its index. If it does, other values give the same text as long as they agree at the indices that
the template names, as they do when more are put after them. -/
theorem render_needs_indices {source : String} {template : Template}
    (h : parse source = .ok template) (values : List String) :
    ((∃ text, template.render values = .ok text)
        ↔ template.maxIndex? = none
          ∨ ∃ highest, template.maxIndex? = some highest ∧ highest < values.length)
      ∧ (∀ error, template.render values = .error error →
        ∃ before field after, source.toList = spelling (before ++ .braced field :: after)
          ∧ (∀ other, .braced other ∈ before → other.placeholder.index < values.length)
          ∧ values.length ≤ field.placeholder.index
          ∧ error = .formatSyntax source (Text.utf8Length (spelling before))
            (.indexOutOfRange field.placeholder.index values.length)
          ∧ error.formatIndex? = some field.placeholder.index)
      ∧ (∀ text others, template.render values = .ok text →
        (∀ index ∈ template.indices, others[index]? = values[index]?) →
          template.render others = .ok text)
      ∧ ∀ text more, template.render values = .ok text →
        template.render (values ++ more) = .ok text := by
  refine ⟨exists_render_iff, fun error herror => ?_, fun text others => render_of_agree,
    fun text more htext => ?_⟩
  · obtain ⟨position, fault, hmissing, rfl⟩ := render_eq_error_iff.mp herror
    obtain ⟨tokens, htokens, rfl⟩ := parse_eq_ok_iff.mp h
    rw [firstMissing_mergeRuns] at hmissing
    obtain ⟨before, field, after, rfl, hbefore, hle, rfl, rfl⟩ := exists_token_of_missing hmissing
    rw [Nat.zero_add]
    exact ⟨before, field, after, htokens, hbefore, hle, rfl, rfl⟩
  · refine render_of_agree htext fun index hi => List.getElem?_append_left ?_
    exact maxIndex?_lt_iff.mp (exists_render_iff.mp ⟨text, htext⟩) index hi

/-- The second of three placeholders is the first without a value, and the last has the highest
index. With one more value than that one needs the text is there. -/
theorem render_needs_indices_second :
    ∃ template, parse "ä\x7b0\x7d\x7b2\x7d\x7b7\x7d" = .ok template
      ∧ (∃ before field after, "ä\x7b0\x7d\x7b2\x7d\x7b7\x7d".toList
          = spelling (before ++ .braced field :: after)
        ∧ Text.utf8Length (spelling before) = 5 ∧ field.placeholder.index = 2)
      ∧ template.render (["p", "q", "r", "s", "t", "u", "v", "w"] ++ ["x"]) = .ok "äprw" := by
  have hparse : parse "ä\x7b0\x7d\x7b2\x7d\x7b7\x7d" = .ok ⟨"ä\x7b0\x7d\x7b2\x7d\x7b7\x7d",
      [.literal "ä", .placeholder ⟨0, 0⟩ 2, .placeholder ⟨2, 0⟩ 5, .placeholder ⟨7, 0⟩ 8]⟩ := by
    decide +kernel
  refine ⟨_, hparse, ?_, ?_⟩
  · obtain ⟨-, herror, -⟩ := render_needs_indices hparse ["p", "q"]
    obtain ⟨before, field, after, htokens, -, -, herror, -⟩ := herror _ rfl
    injection herror with _ hposition hfault
    injection hfault with hindex
    exact ⟨before, field, after, htokens, hposition.symm, hindex.symm⟩
  · exact (render_needs_indices hparse _).2.2.2 _ ["x"] (by decide +kernel)

end PathFunctions.Template
