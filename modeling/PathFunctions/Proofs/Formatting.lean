import Mathlib.Data.List.Forall2
import PathFunctions.Node.TextNode
import PathFunctions.Proofs.Language
import PathFunctions.Proofs.Rendering
import PathFunctions.Proofs.Slots
import PathFunctions.Registry.Invoke
import PathFunctions.Registry.Setup

/-!
# What a call of `format` answers

A call of `format` by name answers, in this order of precedence, with the fault of its template,
with the first placeholder that lacks a value, or with the one string in which every placeholder
has given way to the element that its index names (`Registry.invoke_format_law`).
-/

namespace PathFunctions

variable {N : Type} [Node N]

/-- What segments turn into: literal text is kept, and a placeholder becomes the aligned text of the
element that its index names. -/
inductive Fills (args : List (Argument N)) : Segment → String → Prop
  | literal (text : String) : Fills args (.literal text) text
  | placeholder {hole : Placeholder} {place : Nat × Nat} {text : String} (position : Nat) :
      IsElement args hole.index place → textAt? args place = some text →
        Fills args (.placeholder hole position) (pad text hole.alignment)

namespace Template

section Segments

variable {segments : List Segment} {args : List (Argument N)}

theorem fills_block : ∀ {segment : Segment}, segment.InRange (valueCount args) →
    Fills args segment (segment.block (valueTexts args))
  | .literal text, _ => .literal text
  | .placeholder hole position, h => by
    have hlt : hole.index < valueCount args := h hole.index rfl
    obtain ⟨place, hplace, -⟩ := existsUnique_isElement hlt
    have hget := getElem?_valueTexts hplace
    rw [← length_valueTexts] at hlt
    rw [List.getElem?_eq_getElem hlt] at hget
    rw [Segment.block, List.getElem?_eq_getElem hlt]
    exact .placeholder position hplace hget.symm

theorem forall₂_fills (h : ∀ segment ∈ segments, segment.InRange (valueCount args)) :
    List.Forall₂ (Fills args) segments (segments.map (Segment.block (valueTexts args))) :=
  List.forall₂_map_right_iff.mpr
    (List.forall₂_same.mpr fun segment hs => fills_block (h segment hs))

end Segments

end Template

open Template

section Format

variable {template : Argument N} {args : List (Argument N)}

theorem format_of_parse_error {error : CallError} (h : parse template.text = .error error) :
    format (template :: args) = .error error := by
  rw [format, substitute, h]
  rfl

theorem format_of_parse {parsed : Template} (h : parse template.text = .ok parsed) :
    format (template :: args) = (parsed.render (valueTexts args)).map fun text =>
      [.atomic (.string text)] := by
  rw [format, substitute_of_parse h]
  rfl

theorem format_of_missing {parsed : Template} (h : parse template.text = .ok parsed)
    (hmissing : ∃ segment ∈ parsed.segments, ¬ segment.InRange (valueCount args)) :
    ∃ before hole position after, parsed.segments = before ++ .placeholder hole position :: after
      ∧ (∀ segment ∈ before, segment.InRange (valueCount args))
      ∧ valueCount args ≤ hole.index
      ∧ format (template :: args) = .error (.formatSyntax template.text position
        (.indexOutOfRange hole.index (valueCount args))) := by
  rw [format_of_parse h, render_eq, length_valueTexts, source_of_parse h]
  rcases hfirst : firstMissing (valueCount args) parsed.segments with _ | ⟨position, fault⟩
  · obtain ⟨segment, hmem, hout⟩ := hmissing
    exact absurd (firstMissing_eq_none_iff.mp hfirst segment hmem) hout
  · obtain ⟨before, hole, after, heq, hbefore, hle, rfl⟩ := exists_of_firstMissing hfirst
    exact ⟨before, hole, position, after, heq, hbefore, hle, rfl⟩

theorem format_of_inRange {parsed : Template} (h : parse template.text = .ok parsed)
    (hrange : ∀ segment ∈ parsed.segments, segment.InRange (valueCount args)) :
    ∃ pieces, List.Forall₂ (Fills args) parsed.segments pieces
      ∧ format (template :: args) = .ok [.atomic (.string (String.join pieces))] := by
  refine ⟨_, forall₂_fills hrange, ?_⟩
  rw [format_of_parse h, render_eq, length_valueTexts, firstMissing_eq_none_iff.mpr hrange]
  rfl

theorem Argument.text_eq (arg : Argument N) : arg.text = match arg with
    | .scalar value => value.text
    | .nodes sequence => (sequence.toList.head?.map Node.stringValue).getD "" := by
  rcases arg with value | sequence
  · rfl
  · rw [Argument.text, sequence.next_fst]

end Format

namespace Registry

section Invoke

variable (qualifier : Option String) (current : Option N)

theorem resolve_stringFormat (hints : List ResultType) :
    (stringFormat : Registry N).resolve qualifier "format" hints = .ok .format := by
  rw [show (stringFormat : Registry N) = empty.register .format from rfl, resolve_register]
  rfl

theorem invoke_format_nil :
    (stringFormat : Registry N).invoke qualifier "format" [] current
      = some (.error (.wrongArity "format" 0 1 none)) := by
  refine call_of_target_error ?_
  rw [target, resolve_stringFormat]
  rfl

theorem invoke_format_cons (template : Argument N) (args : List (Argument N)) :
    (stringFormat : Registry N).invoke qualifier "format" (template :: args) current
      = some (format (template :: args)) := by
  have harity : (Extension.format : Extension N).checkArity (template :: args).length = .ok () :=
    Signature.checkArity_eq_ok_iff.mpr
      (Signature.accepts_iff.mpr ⟨Nat.le_add_left 1 _, nofun⟩)
  have htarget : (stringFormat : Registry N).target
      ⟨true, qualifier, "format", template :: args, current⟩ = .ok .format :=
    target_of_checkArity (resolve_stringFormat qualifier _) harity
  exact call_of_target htarget

end Invoke

/-- The template's fault comes first, whatever the other arguments are, then the first placeholder
whose index is past the last value, and only then the text. Every index that is not past the last
value names one element of one argument. -/
theorem invoke_format_law (qualifier : Option String) (template : Argument N)
    (args : List (Argument N)) (current : Option N) :
    (∀ error, parse template.text = .error error →
        stringFormat.invoke qualifier "format" (template :: args) current = some (.error error))
      ∧ (∀ parsed, parse template.text = .ok parsed →
        ((∃ segment ∈ parsed.segments, ¬ segment.InRange (valueCount args)) →
          ∃ before hole position after,
            parsed.segments = before ++ .placeholder hole position :: after
              ∧ (∀ segment ∈ before, segment.InRange (valueCount args))
              ∧ valueCount args ≤ hole.index
              ∧ stringFormat.invoke qualifier "format" (template :: args) current
                = some (.error (.formatSyntax template.text position
                  (.indexOutOfRange hole.index (valueCount args)))))
        ∧ ((∀ segment ∈ parsed.segments, segment.InRange (valueCount args)) →
          ∃ pieces, List.Forall₂ (Fills args) parsed.segments pieces
            ∧ stringFormat.invoke qualifier "format" (template :: args) current
              = some (.ok [.atomic (.string (String.join pieces))])))
      ∧ (∀ index < valueCount args, ∃! place, IsElement args index place)
      ∧ (template.text = match template with
        | .scalar value => value.text
        | .nodes sequence => (sequence.toList.head?.map Node.stringValue).getD "")
      ∧ stringFormat.invoke qualifier "format" [] current
        = some (.error (.wrongArity "format" 0 1 (none : Option Nat)) : Outcome N)
      ∧ ∃ extension : Extension N,
        stringFormat.resolve qualifier "format" [] = .ok extension
          ∧ stringFormat.callDirect extension [] current
            = some (.ok [.atomic (.string "")]) := by
  refine ⟨fun error h => ?_, fun parsed h => ⟨fun hmissing => ?_, fun hrange => ?_⟩,
    fun index => existsUnique_isElement, template.text_eq, invoke_format_nil qualifier current,
    .format, resolve_stringFormat qualifier [], rfl⟩
  · rw [invoke_format_cons, format_of_parse_error h]
  · simp only [invoke_format_cons, Option.some.injEq]
    exact format_of_missing h hmissing
  · simp only [invoke_format_cons, Option.some.injEq]
    exact format_of_inRange h hrange

/-- An empty sequence moves the later values down, and the last of them is aligned. -/
theorem invoke_format_law_shifted :
    ∃ pieces, List.Forall₂
        (Fills [.nodes .empty, .nodes (.all [TextNode.mk "a"]), .scalar (.boolean true)])
        [.literal "<", .placeholder ⟨1, 6⟩ 1, .literal "|", .placeholder ⟨0, 0⟩ 7, .literal ">"]
        pieces
      ∧ String.join pieces = "<  true|a>" := by
  have hparse : parse "<\x7b1,6\x7d|\x7b0\x7d>" = .ok ⟨"<\x7b1,6\x7d|\x7b0\x7d>", [.literal "<",
      .placeholder ⟨1, 6⟩ 1, .literal "|", .placeholder ⟨0, 0⟩ 7, .literal ">"]⟩ := by
    decide +kernel
  obtain ⟨-, hlaw, -⟩ := invoke_format_law none (.scalar (.string "<\x7b1,6\x7d|\x7b0\x7d>"))
    [.nodes .empty, .nodes (.all [TextNode.mk "a"]), .scalar (.boolean true)] none
  obtain ⟨pieces, hpieces, hinvoke⟩ :=
    (hlaw _ hparse).2 (firstMissing_eq_none_iff.mp (by decide +kernel))
  have heval : (stringFormat : Registry TextNode).invoke none "format"
      [.scalar (.string "<\x7b1,6\x7d|\x7b0\x7d>"), .nodes .empty,
        .nodes (.all [TextNode.mk "a"]), .scalar (.boolean true)] none
      = some (.ok [.atomic (.string "<  true|a>")]) := by
    rw [invoke_format_cons]
    decide +kernel
  simp only [heval, Option.some.injEq, Except.ok.injEq, List.cons.injEq, Item.atomic.injEq,
    Scalar.string.injEq, and_true] at hinvoke
  exact ⟨pieces, hpieces, hinvoke.symm⟩

end Registry

end PathFunctions
