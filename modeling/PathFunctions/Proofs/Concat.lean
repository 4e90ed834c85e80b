import PathFunctions.Proofs.Language
import PathFunctions.Proofs.Rendering

/-!
# Templates one after the other

No token of a template looks past its own end, so a text after one is read as it is by itself,
further on by the bytes of the template: its placeholders and its fault move (`parse_append_ok`,
`parse_append_error`), and literals join where the two meet. The rendered texts are then joined as
well, unless a placeholder lacks a value, and the first one that does is in the first template if
any there is.
-/

namespace PathFunctions.Template

theorem map_literalOf (f : Nat → Nat) (run : List Char) :
    (literalOf run).map (Segment.mapPosition f) = literalOf run := by
  rw [literalOf]
  split <;> rfl

/-- Tokens that stand further on come to the same segments further on. -/
theorem mergeRuns_piecesFrom_add (bytes : Nat) :
    ∀ (tokens : List Token) (position : Nat) (run : List Char),
      mergeRuns run (piecesFrom (position + bytes) tokens)
        = (mergeRuns run (piecesFrom position tokens)).map (Segment.mapPosition (· + bytes))
  | [], _, run => (map_literalOf _ run).symm
  | .plain _ _ _ :: tokens, position, run | .openingBraces :: tokens, position, run
  | .closingBraces :: tokens, position, run => by
    rw [piecesFrom, piecesFrom, Nat.add_right_comm]
    exact mergeRuns_piecesFrom_add bytes tokens _ (_ :: run)
  | .braced field :: tokens, position, run => by
    rw [piecesFrom, piecesFrom, Nat.add_right_comm, Token.piece, Token.piece, mergeRuns, mergeRuns,
      List.map_append, map_literalOf, List.map_cons, mergeRuns_piecesFrom_add bytes tokens]
    rfl

/-- What both templates read together come to. -/
def joinTemplates (first second : Template) : Template :=
  ⟨first.source ++ second.source, joinSegments first.segments
    (second.segments.map (Segment.mapPosition (· + first.source.utf8ByteSize)))⟩

theorem parse_append_ok {a b : String} {first second : Template} (ha : parse a = .ok first)
    (hb : parse b = .ok second) : parse (a ++ b) = .ok (joinTemplates first second) := by
  obtain ⟨tokens, htokens, rfl⟩ := parse_eq_ok_iff.mp ha
  obtain ⟨others, hothers, rfl⟩ := parse_eq_ok_iff.mp hb
  refine parse_eq_ok_iff.mpr ⟨tokens ++ others, ?_, ?_⟩
  · rw [String.toList_append, htokens, hothers, spelling_append]
  · rw [joinTemplates, ← mergeRuns_piecesFrom_add, Nat.zero_add, ← utf8Length_toList, htokens]
    congr 1
    refine (mergeRuns_eq (maximal_joinSegments (maximal_mergeRuns [] _)
      (maximal_mergeRuns [] _)) ?_).symm
    rw [pieces_joinSegments, pieces_mergeRuns, pieces_mergeRuns, piecesFrom_append, Nat.zero_add]
    rfl

theorem parse_append_error {a b : String} {first : Template} {error : CallError}
    (ha : parse a = .ok first) (hb : parse b = .error error) :
    ∃ position fault, error = .formatSyntax b position fault
      ∧ parse (a ++ b) = .error (.formatSyntax (a ++ b) (position + a.utf8ByteSize) fault) := by
  obtain ⟨tokens, htokens, -⟩ := parse_eq_ok_iff.mp ha
  obtain ⟨others, rest, fault, hothers, hstuck, rfl⟩ := parse_eq_error_iff.mp hb
  refine ⟨_, fault, rfl, ?_⟩
  refine parse_eq_error_iff.mpr ⟨tokens ++ others, rest, fault, ?_, hstuck, ?_⟩
  · rw [String.toList_append, htokens, hothers, spelling_append, List.append_assoc]
  · rw [spelling_append, Text.utf8Length_append, ← htokens, utf8Length_toList, Nat.add_comm]

theorem maxIndex?_joinTemplates (first second : Template) :
    (joinTemplates first second).maxIndex? = max first.maxIndex? second.maxIndex? := by
  have hindex : Segment.index? ∘ Segment.mapPosition (· + first.source.utf8ByteSize)
      = Segment.index? := funext fun segment => index?_mapPosition _ segment
  rw [maxIndex?, joinTemplates, filterMap_joinSegments _ fun _ => rfl, List.filterMap_map, hindex,
    max?_append]
  rfl

theorem blocks_joinTemplates (values : List String) (first second : Template) :
    blocks values (joinTemplates first second).segments
      = blocks values first.segments ++ blocks values second.segments := by
  rw [joinTemplates, blocks_joinSegments, blocks_mapPosition]

theorem firstMissing_joinTemplates (count : Nat) (first second : Template) :
    firstMissing count (joinTemplates first second).segments
      = (firstMissing count first.segments).or ((firstMissing count second.segments).map
          fun place => (place.1 + first.source.utf8ByteSize, place.2)) := by
  rw [joinTemplates, firstMissing_joinSegments, firstMissing_mapPosition]

section Render

variable {first second : Template} {values : List String}

theorem render_joinTemplates_ok {x y : String} (hx : first.render values = .ok x)
    (hy : second.render values = .ok y) :
    (joinTemplates first second).render values = .ok (x ++ y) := by
  obtain ⟨hfirst, rfl⟩ := render_eq_ok_iff.mp hx
  obtain ⟨hsecond, rfl⟩ := render_eq_ok_iff.mp hy
  refine render_eq_ok_iff.mpr ⟨?_, ?_⟩
  · rw [firstMissing_joinTemplates, hfirst, hsecond]
    rfl
  · rw [blocks_joinTemplates]

theorem render_joinTemplates_first {error : CallError}
    (hx : first.render values = .error error) :
    ∃ position index, error = .formatSyntax first.source position
        (.indexOutOfRange index values.length)
      ∧ (joinTemplates first second).render values
        = .error (.formatSyntax (first.source ++ second.source) position
          (.indexOutOfRange index values.length)) := by
  obtain ⟨position, fault, hfirst, rfl⟩ := render_eq_error_iff.mp hx
  obtain ⟨index, rfl⟩ := firstMissing_eq_some hfirst
  refine ⟨position, index, rfl, render_eq_error_iff.mpr ⟨_, _, ?_, rfl⟩⟩
  rw [firstMissing_joinTemplates, hfirst]
  rfl

theorem render_joinTemplates_second {x : String} {error : CallError}
    (hx : first.render values = .ok x) (hy : second.render values = .error error) :
    ∃ position index, error = .formatSyntax second.source position
        (.indexOutOfRange index values.length)
      ∧ (joinTemplates first second).render values
        = .error (.formatSyntax (first.source ++ second.source)
          (position + first.source.utf8ByteSize) (.indexOutOfRange index values.length)) := by
  obtain ⟨hfirst, -⟩ := render_eq_ok_iff.mp hx
  obtain ⟨position, fault, hsecond, rfl⟩ := render_eq_error_iff.mp hy
  obtain ⟨index, rfl⟩ := firstMissing_eq_some hsecond
  refine ⟨position, index, rfl, render_eq_error_iff.mpr ⟨_, _, ?_, rfl⟩⟩
  rw [firstMissing_joinTemplates, hfirst, hsecond]
  rfl

end Render

/-- After a text `a` that reads as a template, `b` fails as it does alone, or it reads and renders
as it does alone, with what is in it further on by the bytes of `a` and with the literals joined
where the two meet. -/
theorem templates_compose {a : String} {first : Template} (ha : parse a = .ok first) (b : String)
    (values : List String) :
    (∀ error, parse b = .error error → ∃ position fault, error = .formatSyntax b position fault
        ∧ parse (a ++ b) = .error (.formatSyntax (a ++ b) (position + a.utf8ByteSize) fault))
      ∧ ∀ second, parse b = .ok second →
        (∃ joined, parse (a ++ b) = .ok joined ∧ joined.source = a ++ b
          ∧ joined.segments = joinSegments first.segments
            (second.segments.map (Segment.mapPosition (· + a.utf8ByteSize)))
          ∧ joined.maxIndex? = max first.maxIndex? second.maxIndex?)
        ∧ (∀ x y, substitute a values = .ok x → substitute b values = .ok y →
          substitute (a ++ b) values = .ok (x ++ y))
        ∧ (∀ error, substitute a values = .error error →
          ∃ position index,
            error = .formatSyntax a position (.indexOutOfRange index values.length)
            ∧ substitute (a ++ b) values
              = .error (.formatSyntax (a ++ b) position (.indexOutOfRange index values.length)))
        ∧ ∀ x error, substitute a values = .ok x → substitute b values = .error error →
          ∃ position index,
            error = .formatSyntax b position (.indexOutOfRange index values.length)
            ∧ substitute (a ++ b) values
              = .error (.formatSyntax (a ++ b) (position + a.utf8ByteSize)
                (.indexOutOfRange index values.length)) := by
  refine ⟨fun error hb => parse_append_error ha hb, fun second hb => ?_⟩
  have hjoined := parse_append_ok ha hb
  have hsource := source_of_parse ha
  have hsource' := source_of_parse hb
  rw [substitute_of_parse ha, substitute_of_parse hb, substitute_of_parse hjoined]
  refine ⟨⟨joinTemplates first second, hjoined, ?_, ?_, maxIndex?_joinTemplates first second⟩,
    fun x y hx hy => render_joinTemplates_ok hx hy, fun error hx => ?_, fun x error hx hy => ?_⟩
  · rw [joinTemplates, hsource, hsource']
  · rw [joinTemplates, hsource]
  · rw [← hsource, ← hsource']
    exact render_joinTemplates_first hx
  · rw [← hsource, ← hsource']
    exact render_joinTemplates_second hx hy

theorem templates_compose_seam :
    ∃ joined, parse ("ä\x7b0\x7db" ++ "c\x7b\x7b\x7b2\x7d") = .ok joined
      ∧ joined.segments = [.literal "ä", .placeholder ⟨0, 0⟩ 2, .literal "bc\x7b",
        .placeholder ⟨2, 0⟩ 9]
      ∧ joined.maxIndex? = some 2
      ∧ substitute ("ä\x7b0\x7db" ++ "c\x7b\x7b\x7b2\x7d") ["p", "q"]
        = .error (.formatSyntax ("ä\x7b0\x7db" ++ "c\x7b\x7b\x7b2\x7d") 9
          (.indexOutOfRange 2 2)) := by
  have ha : parse "ä\x7b0\x7db"
      = .ok ⟨"ä\x7b0\x7db", [.literal "ä", .placeholder ⟨0, 0⟩ 2, .literal "b"]⟩ := by decide +kernel
  have hb : parse "c\x7b\x7b\x7b2\x7d"
      = .ok ⟨"c\x7b\x7b\x7b2\x7d", [.literal "c\x7b", .placeholder ⟨2, 0⟩ 3]⟩ := by decide +kernel
  have hx : substitute "ä\x7b0\x7db" ["p", "q"] = .ok "äpb" := by decide +kernel
  have hy : substitute "c\x7b\x7b\x7b2\x7d" ["p", "q"]
      = .error (.formatSyntax "c\x7b\x7b\x7b2\x7d" 3 (.indexOutOfRange 2 2)) := by decide +kernel
  obtain ⟨⟨joined, hjoined, -, hsegments, hmax⟩, -, -, hsecond⟩ :=
    (templates_compose ha "c\x7b\x7b\x7b2\x7d" ["p", "q"]).2 _ hb
  obtain ⟨position, index, herror, hsub⟩ := hsecond _ _ hx hy
  cases herror
  refine ⟨joined, hjoined, ?_, ?_, hsub⟩
  · rw [hsegments]
    decide +kernel
  · rw [hmax]
    decide

end PathFunctions.Template
