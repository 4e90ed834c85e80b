import Mathlib.Algebra.GroupWithZero.Nat
import Mathlib.Data.List.Forall2
import Mathlib.Data.Nat.PSub
import PathFunctions.Proofs.Rendering

/-!
# Alignment

Every placeholder of a rendered template gives way to a block: its value, whole, with spaces on one
side up to the width (`Aligned`). So the length of the text is known from the lengths of the
literals, the widths and the lengths of the values (`Template.render_aligned`).
-/

namespace PathFunctions

/-- How many spaces a value gets. A value as wide as asked for gets none; the subtraction for a
narrower one has no result where it would fall below zero. -/
def fill? (value : String) (alignment : Int) : Option Nat :=
  if alignment.natAbs ≤ value.length then some 0 else Nat.psub alignment.natAbs value.length

/-- `block` is `value` and, on the side the alignment asks for, nothing but spaces. -/
structure Aligned (value : String) (alignment : Int) (block : String) : Prop where
  length_eq : block.length = max alignment.natAbs value.length
  toList_eq : ∃ fill, fill? value alignment = some fill ∧ block.toList =
    if 0 < alignment then List.replicate fill ' ' ++ value.toList
    else value.toList ++ List.replicate fill ' '

theorem fill?_eq (value : String) (alignment : Int) :
    fill? value alignment = some (alignment.natAbs - value.length) := by
  rw [fill?]
  split
  · rename_i hle
    rw [Nat.sub_eq_zero_of_le hle]
  · rename_i hlt
    exact Nat.psub_eq_sub (Nat.le_of_not_le hlt)

theorem aligned_pad (value : String) (alignment : Int) :
    Aligned value alignment (pad value alignment) where
  length_eq := length_pad value alignment
  toList_eq := by
    refine ⟨_, fill?_eq value alignment, ?_⟩
    rw [pad]
    split
    · rename_i hle
      rw [Nat.sub_eq_zero_of_le hle, List.replicate_zero, List.nil_append, List.append_nil,
        ite_self]
    · split <;> rw [String.toList_append, String.toList_ofList]

/-- What a segment turns into when it is filled with some values. -/
inductive Segment.Renders (values : List String) : Segment → String → Prop
  | literal (text : String) : Renders values (.literal text) text
  | placeholder {hole : Placeholder} {value block : String} (position : Nat) :
      values[hole.index]? = some value → Aligned value hole.alignment block →
        Renders values (.placeholder hole position) block

/-- How many characters a segment turns into. -/
def Segment.width (values : List String) : Segment → Nat
  | .literal text => text.length
  | .placeholder hole _ => max hole.alignment.natAbs ((values[hole.index]?).getD "").length

namespace Template

variable {values : List String} {segments : List Segment}

theorem renders_block : ∀ {segment : Segment}, segment.InRange values.length →
    segment.Renders values (segment.block values)
  | .literal text, _ => .literal text
  | .placeholder hole position, h => by
    have hlt : hole.index < values.length := h hole.index rfl
    rw [Segment.block, List.getElem?_eq_getElem hlt]
    exact .placeholder position (List.getElem?_eq_getElem hlt) (aligned_pad _ _)

theorem forall₂_renders (h : ∀ segment ∈ segments, segment.InRange values.length) :
    List.Forall₂ (Segment.Renders values) segments (segments.map (Segment.block values)) :=
  List.forall₂_map_right_iff.mpr
    (List.forall₂_same.mpr fun segment hs => renders_block (h segment hs))

theorem length_block (values : List String) :
    ∀ segment : Segment, (segment.block values).length = segment.width values
  | .literal _ => rfl
  | .placeholder hole _ => length_pad _ hole.alignment

theorem length_blocks (values : List String) : ∀ segments : List Segment,
    (blocks values segments).length = (segments.map (Segment.width values)).sum
  | [] => rfl
  | segment :: rest => by
    rw [blocks_cons, String.length_append, length_block, length_blocks values rest,
      List.map_cons, List.sum_cons]

/-- What renders is the blocks of the segments one after the other. A literal is its own block, and
that of a placeholder is as wide as asked for or as its value, whichever is more, with the value at
its end if the alignment is positive and at its start if not. -/
theorem render_aligned (template : Template) {values : List String} {text : String}
    (h : template.render values = .ok text) :
    ∃ blocks, List.Forall₂ (Segment.Renders values) template.segments blocks
      ∧ text = String.join blocks
      ∧ text.length = (template.segments.map (Segment.width values)).sum := by
  obtain ⟨hnone, rfl⟩ := render_eq_ok_iff.mp h
  have hrange := firstMissing_eq_none_iff.mp hnone
  exact ⟨_, forall₂_renders hrange, rfl, length_blocks values _⟩

/-- A value with a brace, one that is wider than asked for, and one with a combining mark, which
counts as a character of its own. -/
theorem render_aligned_braces :
    ∃ template, parse "\x7b1,3\x7d|\x7b0,-4\x7d|\x7b2,5\x7d" = .ok template
      ∧ template.render ["a\x7b0", "wide", "ae\u0301"] = .ok "wide|a\x7b0 |  ae\u0301"
      ∧ "wide|a\x7b0 |  ae\u0301".length = (template.segments.map
        (Segment.width ["a\x7b0", "wide", "ae\u0301"])).sum := by
  have hparse : parse "\x7b1,3\x7d|\x7b0,-4\x7d|\x7b2,5\x7d"
      = .ok ⟨"\x7b1,3\x7d|\x7b0,-4\x7d|\x7b2,5\x7d", [.placeholder ⟨1, 3⟩ 0, .literal "|",
        .placeholder ⟨0, -4⟩ 6, .literal "|", .placeholder ⟨2, 5⟩ 13]⟩ := by
    decide +kernel
  have hrender : render ⟨"\x7b1,3\x7d|\x7b0,-4\x7d|\x7b2,5\x7d", [.placeholder ⟨1, 3⟩ 0,
      .literal "|", .placeholder ⟨0, -4⟩ 6, .literal "|", .placeholder ⟨2, 5⟩ 13]⟩
        ["a\x7b0", "wide", "ae\u0301"] = .ok "wide|a\x7b0 |  ae\u0301" := by
    decide +kernel
  obtain ⟨-, -, -, hlength⟩ := render_aligned _ hrender
  exact ⟨_, hparse, hrender, hlength⟩

end Template

end PathFunctions
