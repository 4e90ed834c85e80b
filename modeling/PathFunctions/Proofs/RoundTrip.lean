import PathFunctions.Proofs.Language
import PathFunctions.Proofs.Rendering
import PathFunctions.Template.Printer

/-!
# Written templates read back

A written literal is scanned back to its characters, and a written placeholder is a token as long
as its numbers are below the limit, so whatever is written reads back with its literals merged and
its placeholders where they were written (`parse_print`). The segments of a template that was read
are in that form already, and writing them loses their positions only (`parse_print_parsed`).
-/

namespace PathFunctions

/-- The numbers of a placeholder are small enough to be read. -/
def Segment.Printable : Segment → Prop
  | .literal _ => True
  | .placeholder hole _ => hole.index ≤ 999999 ∧ hole.alignment.natAbs ≤ 999999

instance : DecidablePred Segment.Printable
  | .literal _ => inferInstanceAs (Decidable True)
  | .placeholder hole _ =>
    inferInstanceAs (Decidable (hole.index ≤ 999999 ∧ hole.alignment.natAbs ≤ 999999))

namespace Template

/-- The segments at the byte offsets where they are written, the first of them at `position`. -/
def placedFrom (position : Nat) : List Segment → List Segment
  | [] => []
  | segment :: rest =>
    segment.mapPosition (fun _ => position)
      :: placedFrom (position + segment.print.utf8ByteSize) rest

def Numeral.ofNat (n : Nat) (h : n < numberLimit) : Numeral where
  digits := Nat.toDigits 10 n
  ne_nil := Nat.toDigits_ne_nil
  isDigit := fun _ hc => Nat.isDigit_of_mem_toDigits (by decide) (by decide) hc
  lt_limit := by rwa [Nat.ofDigitChars_ten_toDigits]

theorem Numeral.value_ofNat {n : Nat} (h : n < numberLimit) : (Numeral.ofNat n h).value = n :=
  Nat.ofDigitChars_ten_toDigits

theorem toList_toString_nat (n : Nat) : (toString n).toList = Nat.toDigits 10 n :=
  Nat.toList_repr

theorem toList_toString_int (a : Int) :
    (toString a).toList = sign (decide (a < 0)) ++ Nat.toDigits 10 a.natAbs := by
  rw [Int.toString_eq_repr, Int.repr_eq_if]
  by_cases h : a < 0
  · have hnat : (-a).toNat = a.natAbs := by omega
    rw [if_neg (by omega), String.toList_append, Nat.toList_repr, hnat, decide_eq_true h]
    rfl
  · have hnat : a.toNat = a.natAbs := by omega
    rw [if_pos (by omega), Nat.toList_repr, hnat, decide_eq_false h]
    rfl

/-- A written placeholder is a token with no spaces, no specifier and no width that is 0. -/
theorem exists_field_print (hole : Placeholder) (hi : hole.index < numberLimit)
    (ha : hole.alignment.natAbs < numberLimit) :
    ∃ field : Field, hole.print.toList = (Token.braced field).text
      ∧ field.placeholder = hole := by
  obtain ⟨index, alignment⟩ := hole
  by_cases hzero : alignment = 0
  · refine ⟨⟨.ofNat index hi, 0, none, .brace⟩, ?_, ?_⟩
    · simp [Placeholder.print, hzero, Token.text, Field.text, widthText, Ending.text,
        Numeral.ofNat, spaces, Nat.toList_repr]
    · simp only [Field.placeholder, Numeral.value_ofNat, hzero]
      rfl
  · refine ⟨⟨.ofNat index hi, 0, some ⟨0, decide (alignment < 0), .ofNat _ ha, 0⟩, .brace⟩,
      ?_, ?_⟩
    · simp only [Placeholder.print, hzero, if_false, String.toList_append, toList_toString_nat,
        toList_toString_int, Token.text, Field.text, widthText, Width.text, Ending.text,
        Numeral.ofNat, spaces, List.replicate_zero, List.nil_append, List.append_nil]
      simp
    · simp only [Field.placeholder, Numeral.value_ofNat, Option.map_some, Option.getD_some,
        Width.alignment, decide_eq_true_eq]
      congr 1
      split <;> omega

theorem scan_print_append {segment : Segment} (h : segment.Printable) (position : Nat)
    (rest : List Char) :
    scan position (segment.print.toList ++ rest)
      = (scan (position + segment.print.utf8ByteSize) rest).map
          ((segment.mapPosition fun _ => position).pieces ++ ·) := by
  rw [← utf8Length_toList]
  rcases segment with text | ⟨hole, place⟩
  · rw [Segment.print, printLiteral, String.toList_ofList, scan_doubled]
    rfl
  · have hlimit : numberLimit = 1000000 := rfl
    obtain ⟨hi, ha⟩ := h
    obtain ⟨field, htext, rfl⟩ := exists_field_print hole (by omega) (by omega)
    rw [Segment.print, htext, scan_text_append]
    rfl

theorem print_cons (segment : Segment) (rest : List Segment) :
    print (segment :: rest) = segment.print ++ print rest := by
  rw [print, List.map_cons, String.join_cons, print]

theorem scan_print : ∀ {segments : List Segment} (position : Nat),
    (∀ segment ∈ segments, segment.Printable) →
      scan position (print segments).toList
        = .ok ((placedFrom position segments).flatMap Segment.pieces)
  | [], position, _ => by
    show scan position [] = .ok []
    rw [scan]
  | segment :: rest, position, h => by
    have hrest := scan_print (position + segment.print.utf8ByteSize)
      fun other ho => h other (List.mem_cons_of_mem _ ho)
    rw [print_cons, String.toList_append, scan_print_append (h segment List.mem_cons_self),
      hrest, placedFrom, List.flatMap_cons]
    rfl

theorem parse_print {segments : List Segment} (h : ∀ segment ∈ segments, segment.Printable) :
    parse (print segments) = .ok ⟨print segments, mergeLiterals (placedFrom 0 segments)⟩ := by
  unfold parse
  rw [scan_print 0 h]
  simp only
  rw [mergeRuns_eq (maximal_mergeLiterals _) (pieces_mergeLiterals _)]

/-- The first segment of `others` is placed at the end of what is written before it. -/
theorem placedFrom_mapPosition (f : Nat → Nat) (hf : ∀ p q, f p = f q) :
    ∀ (segments : List Segment) (position : Nat),
      (placedFrom position segments).map (Segment.mapPosition f)
        = segments.map (Segment.mapPosition f)
  | [], position => rfl
  | segment :: rest, position => by
    rw [placedFrom, List.map_cons, List.map_cons, placedFrom_mapPosition f hf rest]
    congr 1
    rcases segment with text | ⟨hole, place⟩
    · rfl
    · simp only [Segment.mapPosition, Segment.placeholder.injEq, true_and]
      exact hf _ _

theorem exists_field_of_mem {hole : Placeholder} {place : Nat} :
    ∀ {tokens : List Token} {position : Nat},
      .placeholder hole place ∈ piecesFrom position tokens →
        ∃ field : Field, field.placeholder = hole
  | [], position, h => by cases h
  | token :: tokens, position, h => by
    rw [piecesFrom, List.mem_cons] at h
    rcases h with h | h
    · cases token <;> cases h
      exact ⟨_, rfl⟩
    · exact exists_field_of_mem h

theorem Field.placeholder_limits (field : Field) :
    field.placeholder.index < numberLimit ∧ field.placeholder.alignment.natAbs < numberLimit := by
  obtain ⟨index, trail, width, ending⟩ := field
  refine ⟨index.lt_limit, ?_⟩
  rcases width with _ | ⟨lead, negative, numeral, trail⟩
  · show (0 : Int).natAbs < numberLimit
    decide
  · have hlt : numeral.value < numberLimit := numeral.lt_limit
    simp only [Field.placeholder, Option.map_some, Option.getD_some, Width.alignment]
    split <;> omega

theorem printable_of_parse {source : String} {template : Template}
    (h : parse source = .ok template) : ∀ segment ∈ template.segments, segment.Printable := by
  obtain ⟨tokens, -, rfl⟩ := parse_eq_ok_iff.mp h
  intro segment hs
  rcases segment with text | ⟨hole, place⟩
  · trivial
  · have hmem : .placeholder hole place
        ∈ (mergeRuns [] (piecesFrom 0 tokens)).flatMap Segment.pieces :=
      List.mem_flatMap.mpr ⟨_, hs, List.mem_singleton.mpr rfl⟩
    rw [pieces_mergeRuns] at hmem
    obtain ⟨field, rfl⟩ := exists_field_of_mem hmem
    have hlimit : numberLimit = 1000000 := rfl
    obtain ⟨hi, ha⟩ := field.placeholder_limits
    exact ⟨by omega, by omega⟩

theorem maximal_of_parse {source : String} {template : Template}
    (h : parse source = .ok template) : Maximal template.segments := by
  obtain ⟨tokens, -, rfl⟩ := parse_eq_ok_iff.mp h
  exact maximal_mergeRuns [] _

theorem parse_print_parsed {source : String} {template : Template}
    (h : parse source = .ok template) :
    parse (print template.segments)
      = .ok ⟨print template.segments, placedFrom 0 template.segments⟩ := by
  have hplaced := placedFrom_mapPosition (fun _ => 0) (fun _ _ => rfl) template.segments 0
  have hmax : Maximal (placedFrom 0 template.segments) := by
    rw [← maximal_mapPosition fun _ => 0, hplaced, maximal_mapPosition]
    exact maximal_of_parse h
  rw [parse_print (printable_of_parse h), mergeLiterals_eq hmax]

/-- Templates that differ in their positions only render to the same texts. -/
theorem render_of_mapPosition_eq {f : Nat → Nat} {first second : Template}
    (h : first.segments.map (Segment.mapPosition f) = second.segments.map (Segment.mapPosition f))
    {values : List String} {text : String} (ht : first.render values = .ok text) :
    second.render values = .ok text := by
  obtain ⟨hnone, rfl⟩ := render_eq_ok_iff.mp ht
  refine render_eq_ok_iff.mpr ⟨?_, ?_⟩
  · have hmap := firstMissing_mapPosition values.length f first.segments
    rw [h, firstMissing_mapPosition, hnone] at hmap
    exact Option.map_eq_none_iff.mp hmap
  · rw [← blocks_mapPosition values f, h, blocks_mapPosition]

theorem substitute_printLiteral (text : String) (values : List String) :
    substitute (printLiteral text) values = .ok text := by
  have hprint : printLiteral text = print [.literal text] := by
    rw [print_cons, Segment.print]
    exact String.append_empty.symm
  have hprintable : ∀ segment ∈ [Segment.literal text], segment.Printable := by
    intro segment hs
    rw [List.mem_singleton.mp hs]
    trivial
  have hmerged : mergeLiterals (placedFrom 0 [.literal text]) = prependText text [] := rfl
  rw [hprint, substitute_of_parse (parse_print hprintable)]
  refine render_eq_ok_iff.mpr ⟨?_, ?_⟩
  · rw [hmerged, firstMissing, ← List.head?_filterMap, filterMap_prependText _ fun _ => rfl]
    rfl
  · rw [hmerged, blocks_prependText]
    exact String.append_empty.symm

/-- What is written reads back: the segments with their literals joined, each placeholder where its
text starts; a literal alone renders as itself; and the segments of a template that was read come
back in other places only and render as they did. -/
theorem parse_undoes_print :
    (∀ segments : List Segment, (∀ segment ∈ segments, segment.Printable) →
        parse (print segments)
          = .ok ⟨print segments, mergeLiterals (placedFrom 0 segments)⟩)
      ∧ (∀ text values, substitute (printLiteral text) values = .ok text)
      ∧ ∀ source template, parse source = .ok template →
        ∃ printed, parse (print template.segments) = .ok printed
          ∧ printed.segments.map (Segment.mapPosition fun _ => 0)
            = template.segments.map (Segment.mapPosition fun _ => 0)
          ∧ ∀ values text, template.render values = .ok text →
            printed.render values = .ok text := by
  refine ⟨fun segments h => parse_print h, substitute_printLiteral, fun source template h => ?_⟩
  have hplaces := placedFrom_mapPosition (fun _ => 0) (fun _ _ => rfl) template.segments 0
  refine ⟨_, parse_print_parsed h, hplaces, fun values text ht => ?_⟩
  exact render_of_mapPosition_eq hplaces.symm ht

theorem parse_undoes_print_nested :
    parse "a\x7b\x7b\x7b3,-12\x7d\x7d\x7dä\x7b0\x7d"
        = .ok ⟨"a\x7b\x7b\x7b3,-12\x7d\x7d\x7dä\x7b0\x7d",
          [.literal "a\x7b", .placeholder ⟨3, -12⟩ 3, .literal "\x7dä", .placeholder ⟨0, 0⟩ 14]⟩
      ∧ ∃ printed, parse "\x7b3,-2\x7d" = .ok printed
        ∧ printed.render ["", "", "", "p"] = .ok "p " := by
  obtain ⟨hprint, -, hparsed⟩ := parse_undoes_print
  refine ⟨?_, ?_⟩
  · have hitems := hprint [.literal "", .literal "a\x7b", .placeholder ⟨3, -12⟩ 0,
      .literal "\x7d", .literal "ä", .placeholder ⟨0, 0⟩ 0] (by decide)
    have htext : print [.literal "", .literal "a\x7b", .placeholder ⟨3, -12⟩ 0,
      .literal "\x7d", .literal "ä", .placeholder ⟨0, 0⟩ 0]
        = "a\x7b\x7b\x7b3,-12\x7d\x7d\x7dä\x7b0\x7d" := by decide +kernel
    rw [htext] at hitems
    rw [hitems]
    decide +kernel
  · have hsource : parse "\x7b03 , -002 :x\x7d"
        = .ok ⟨"\x7b03 , -002 :x\x7d", [.placeholder ⟨3, -2⟩ 0]⟩ := by decide +kernel
    obtain ⟨printed, hprinted, -, hrender⟩ := hparsed _ _ hsource
    exact ⟨printed, hprinted, hrender _ _ (by decide +kernel)⟩

end Template

end PathFunctions
