import Mathlib.Data.List.Basic
import PathFunctions.Proofs.Numeral
import PathFunctions.Template.Parse

/-!
# Maximal literals

Segments are in their normal form when no literal is empty and none stands right after another.
Segments in this form are the same once they are made of the same pieces (`eq_of_maximal`), so the
ways of getting there agree: joining the characters between placeholders as they are scanned
(`maximal_mergeRuns`), joining literals that stand side by side (`maximal_mergeLiterals`), and
joining two sequences that have the form already where they meet (`maximal_joinSegments`).
-/

namespace PathFunctions

/-- What a segment is made of. -/
def Segment.pieces : Segment → List Template.Piece
  | .literal text => text.toList.map .char
  | .placeholder hole position => [.placeholder hole position]

namespace Template

def Piece.isChar : Piece → Bool
  | .char _ => true
  | .placeholder _ _ => false

def startsLiteral : List Segment → Bool
  | .literal _ :: _ => true
  | _ => false

/-- No literal is empty and none stands right after another. -/
def Maximal : List Segment → Prop
  | [] => True
  | .placeholder _ _ :: rest => Maximal rest
  | .literal text :: rest => text ≠ "" ∧ startsLiteral rest = false ∧ Maximal rest

def prependText (text : String) : List Segment → List Segment
  | .literal more :: rest => .literal (text ++ more) :: rest
  | rest => if text = "" then rest else .literal text :: rest

/-- The segments with the literals that stand side by side joined and the empty ones left out. -/
def mergeLiterals : List Segment → List Segment
  | [] => []
  | .placeholder hole position :: rest => .placeholder hole position :: mergeLiterals rest
  | .literal text :: rest => prependText text (mergeLiterals rest)

/-- Some segments and then others, with a literal at the end of the first joined to one at the
start of the others. -/
def joinSegments : List Segment → List Segment → List Segment
  | [], others => others
  | [.literal text], others => prependText text others
  | segment :: rest, others => segment :: joinSegments rest others

theorem exists_char_of_ne {text : String} (h : text ≠ "") :
    ∃ c cs, text.toList = c :: cs := by
  rcases hl : text.toList with _ | ⟨c, cs⟩
  · exact absurd (String.toList_eq_nil_iff.mp hl) h
  · exact ⟨c, cs, rfl⟩

theorem takeWhile_pieces {segments : List Segment} (h : startsLiteral segments = false) :
    (segments.flatMap Segment.pieces).takeWhile Piece.isChar = [] := by
  rcases segments with _ | ⟨text | ⟨hole, position⟩, rest⟩
  · rfl
  · cases h
  · rfl

theorem isChar_map (text : String) :
    ∀ piece ∈ text.toList.map Piece.char, piece.isChar := by
  intro piece h
  obtain ⟨c, -, rfl⟩ := List.mem_map.mp h
  rfl

/-- The pieces settle the segments. -/
theorem eq_of_maximal : ∀ {segments others : List Segment}, Maximal segments → Maximal others →
    segments.flatMap Segment.pieces = others.flatMap Segment.pieces → segments = others
  | [], [], _, _, _ => rfl
  | [], .literal text :: rest, _, ho, h => by
    obtain ⟨c, cs, hc⟩ := exists_char_of_ne ho.1
    simp [Segment.pieces, hc] at h
  | [], .placeholder _ _ :: rest, _, _, h => by simp [Segment.pieces] at h
  | .literal text :: rest, [], hm, _, h => by
    obtain ⟨c, cs, hc⟩ := exists_char_of_ne hm.1
    simp [Segment.pieces, hc] at h
  | .placeholder _ _ :: rest, [], _, _, h => by simp [Segment.pieces] at h
  | .literal text :: rest, .placeholder _ _ :: others, hm, _, h => by
    obtain ⟨c, cs, hc⟩ := exists_char_of_ne hm.1
    simp [Segment.pieces, hc] at h
  | .placeholder _ _ :: rest, .literal text :: others, _, ho, h => by
    obtain ⟨c, cs, hc⟩ := exists_char_of_ne ho.1
    simp [Segment.pieces, hc] at h
  | .placeholder hole position :: rest, .placeholder hole' position' :: others, hm, ho, h => by
    simp only [List.flatMap_cons, Segment.pieces, List.singleton_append, List.cons.injEq,
      Piece.placeholder.injEq] at h
    have hm' : Maximal rest := hm
    have ho' : Maximal others := ho
    obtain ⟨⟨rfl, rfl⟩, hrest⟩ := h
    rw [eq_of_maximal hm' ho' hrest]
  | .literal text :: rest, .literal text' :: others, hm, ho, h => by
    rw [List.flatMap_cons, List.flatMap_cons] at h
    obtain ⟨htext, hrest⟩ := append_inj_of_stop (isChar_map text) (isChar_map text')
      (takeWhile_pieces hm.2.1) (takeWhile_pieces ho.2.1) h
    have hinj : Function.Injective Piece.char := fun _ _ h => Piece.char.inj h
    have hlist := List.map_injective_iff.mpr hinj htext
    rw [String.toList_inj.mp hlist, eq_of_maximal hm.2.2 ho.2.2 hrest]

theorem pieces_literalOf (run : List Char) :
    (literalOf run).flatMap Segment.pieces = run.reverse.map .char := by
  rcases run with _ | ⟨c, run⟩
  · rfl
  · simp [literalOf, Segment.pieces]

theorem pieces_mergeRuns : ∀ (run : List Char) (pieces : List Piece),
    (mergeRuns run pieces).flatMap Segment.pieces = run.reverse.map .char ++ pieces
  | run, [] => by rw [mergeRuns, pieces_literalOf, List.append_nil]
  | run, .char c :: pieces => by
    rw [mergeRuns, pieces_mergeRuns (c :: run) pieces]
    simp
  | run, .placeholder hole position :: pieces => by
    rw [mergeRuns, List.flatMap_append, pieces_literalOf, List.flatMap_cons,
      pieces_mergeRuns [] pieces]
    rfl

theorem maximal_literalOf_append (run : List Char) {segments : List Segment}
    (hs : startsLiteral segments = false) (hm : Maximal segments) :
    Maximal (literalOf run ++ segments) := by
  rcases run with _ | ⟨c, run⟩
  · exact hm
  · refine ⟨?_, hs, hm⟩
    rw [Ne, ← String.toList_eq_nil_iff]
    simp

theorem maximal_mergeRuns : ∀ (run : List Char) (pieces : List Piece),
    Maximal (mergeRuns run pieces)
  | run, [] => by
    have hnil : Maximal [] := trivial
    have h := maximal_literalOf_append run rfl hnil
    rwa [List.append_nil] at h
  | run, .char c :: pieces => maximal_mergeRuns (c :: run) pieces
  | run, .placeholder hole position :: pieces =>
    maximal_literalOf_append run rfl (maximal_mergeRuns [] pieces)

theorem mergeRuns_eq {segments : List Segment} (hm : Maximal segments) {pieces : List Piece}
    (hp : segments.flatMap Segment.pieces = pieces) : mergeRuns [] pieces = segments := by
  refine eq_of_maximal (maximal_mergeRuns [] pieces) hm ?_
  rw [pieces_mergeRuns, hp]
  rfl

theorem pieces_prependText (text : String) (segments : List Segment) :
    (prependText text segments).flatMap Segment.pieces
      = text.toList.map .char ++ segments.flatMap Segment.pieces := by
  unfold prependText
  split
  · simp [Segment.pieces]
  · split
    · rename_i h
      rw [h]
      rfl
    · rfl

theorem maximal_prependText (text : String) {segments : List Segment} (h : Maximal segments) :
    Maximal (prependText text segments) := by
  rcases segments with _ | ⟨more | ⟨hole, position⟩, rest⟩
  · unfold prependText
    split_ifs with ht
    · trivial
    · exact ⟨ht, rfl, trivial⟩
  · refine ⟨fun he => h.1 ?_, h.2⟩
    exact (String.append_eq_empty_iff.mp he).2
  · unfold prependText
    split_ifs with ht
    · exact h
    · exact ⟨ht, rfl, h⟩

theorem pieces_mergeLiterals : ∀ segments : List Segment,
    (mergeLiterals segments).flatMap Segment.pieces = segments.flatMap Segment.pieces
  | [] => rfl
  | .placeholder hole position :: rest => by
    rw [mergeLiterals, List.flatMap_cons, List.flatMap_cons, pieces_mergeLiterals rest]
  | .literal text :: rest => by
    rw [mergeLiterals, pieces_prependText, List.flatMap_cons, pieces_mergeLiterals rest]
    rfl

theorem maximal_mergeLiterals : ∀ segments : List Segment, Maximal (mergeLiterals segments)
  | [] => trivial
  | .placeholder _ _ :: rest => maximal_mergeLiterals rest
  | .literal text :: rest => maximal_prependText text (maximal_mergeLiterals rest)

theorem mergeLiterals_eq {segments : List Segment} (h : Maximal segments) :
    mergeLiterals segments = segments :=
  eq_of_maximal (maximal_mergeLiterals segments) h (pieces_mergeLiterals segments)

theorem pieces_joinSegments : ∀ segments others : List Segment,
    (joinSegments segments others).flatMap Segment.pieces
      = segments.flatMap Segment.pieces ++ others.flatMap Segment.pieces
  | [], others => rfl
  | [.literal text], others => by
    rw [joinSegments, pieces_prependText, List.flatMap_singleton]
    rfl
  | .placeholder hole position :: rest, others => by
    rw [joinSegments, List.flatMap_cons, List.flatMap_cons, pieces_joinSegments rest others,
      List.append_assoc]
    simp
  | .literal text :: next :: rest, others => by
    rw [joinSegments, List.flatMap_cons, List.flatMap_cons, pieces_joinSegments (next :: rest),
      List.append_assoc]
    simp

section Placeholders

variable {β : Type} (f : Segment → Option β) (hf : ∀ text, f (.literal text) = none)

include hf

theorem filterMap_prependText (text : String) (segments : List Segment) :
    (prependText text segments).filterMap f = segments.filterMap f := by
  unfold prependText
  split
  · rw [List.filterMap_cons_none (hf _), List.filterMap_cons_none (hf _)]
  · split
    · rfl
    · rw [List.filterMap_cons_none (hf _)]

/-- What is gathered from the placeholders alone does not hang on where literals are joined. -/
theorem filterMap_joinSegments : ∀ segments others : List Segment,
    (joinSegments segments others).filterMap f
      = segments.filterMap f ++ others.filterMap f
  | [], others => rfl
  | [.literal text], others => by
    rw [joinSegments, filterMap_prependText f hf, List.filterMap_cons_none (hf _)]
    rfl
  | .placeholder hole position :: rest, others => by
    rw [joinSegments, List.filterMap_cons, List.filterMap_cons,
      filterMap_joinSegments rest others]
    · split <;> rfl
    · simp
  | .literal text :: next :: rest, others => by
    rw [joinSegments, List.filterMap_cons_none (hf _), List.filterMap_cons_none (hf _),
      filterMap_joinSegments (next :: rest) others]
    simp

end Placeholders

theorem maximal_joinSegments : ∀ {segments others : List Segment}, Maximal segments →
    Maximal others → Maximal (joinSegments segments others)
  | [], others, _, ho => ho
  | [.literal text], others, _, ho => maximal_prependText text ho
  | .placeholder hole position :: rest, others, hm, ho => by
    have hrest : Maximal rest := hm
    rw [joinSegments]
    · exact maximal_joinSegments hrest ho
    · simp
  | .literal text :: .literal _ :: rest, others, hm, _ => by cases hm.2.1
  | .literal text :: .placeholder hole position :: rest, others, hm, ho => by
    have hrest := maximal_joinSegments hm.2.2 ho
    rw [joinSegments] at hrest ⊢
    · exact ⟨hm.1, rfl, hrest⟩
    · simp
    · simp

end Template

end PathFunctions
