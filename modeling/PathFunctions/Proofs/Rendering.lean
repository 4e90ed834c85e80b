import Mathlib.Data.List.Basic
import PathFunctions.Proofs.Literals
import PathFunctions.Template.Render

/-!
# What a template renders to

Rendering fails at the first placeholder that lacks a value and otherwise joins the blocks of the
segments (`render_eq`). Neither the blocks nor the values that are lacking hang on the positions of
the placeholders, which show in the error only.
-/

namespace PathFunctions

/-- The position and the fault of a placeholder that lacks a value when there are `count` values. -/
def Segment.missing? (count : Nat) : Segment → Option (Nat × TemplateFault)
  | .literal _ => none
  | .placeholder hole position =>
    if count ≤ hole.index then some (position, .indexOutOfRange hole.index count) else none

/-- What a segment adds to the text. -/
def Segment.block (values : List String) : Segment → String
  | .literal text => text
  | .placeholder hole _ => pad ((values[hole.index]?).getD "") hole.alignment

/-- There is a value for the segment if it is a placeholder. -/
def Segment.InRange (count : Nat) (segment : Segment) : Prop :=
  ∀ index, segment.index? = some index → index < count

def Segment.mapPosition (f : Nat → Nat) : Segment → Segment
  | .literal text => .literal text
  | .placeholder hole position => .placeholder hole (f position)

namespace Template

/-- The blocks of some segments one after the other. -/
def blocks (values : List String) (segments : List Segment) : String :=
  String.join (segments.map (Segment.block values))

/-- The first placeholder that lacks a value. -/
def firstMissing (count : Nat) (segments : List Segment) : Option (Nat × TemplateFault) :=
  segments.findSome? (Segment.missing? count)

theorem segment_render_eq (source : String) (values : List String) (segment : Segment) :
    segment.render source values =
      match segment.missing? values.length with
      | none => .ok (segment.block values)
      | some (position, fault) => .error (.formatSyntax source position fault) := by
  rcases segment with text | ⟨hole, position⟩
  · rfl
  · simp only [Segment.render, Segment.missing?, Segment.block]
    by_cases h : values.length ≤ hole.index
    · rw [List.getElem?_eq_none h, if_pos h]
    · rw [List.getElem?_eq_getElem (Nat.lt_of_not_le h), if_neg h]
      rfl

theorem mapM_render (source : String) (values : List String) : ∀ segments : List Segment,
    segments.mapM (Segment.render source values) =
      match firstMissing values.length segments with
      | none => .ok (segments.map (Segment.block values))
      | some (position, fault) => .error (.formatSyntax source position fault)
  | [] => rfl
  | segment :: rest => by
    have ih := mapM_render source values rest
    rw [firstMissing] at ih ⊢
    rw [List.mapM_cons, segment_render_eq, ih, List.findSome?_cons]
    rcases segment.missing? values.length with _ | ⟨position, fault⟩
    · rcases rest.findSome? (Segment.missing? values.length) with _ | ⟨position, fault⟩ <;> rfl
    · rfl

theorem render_eq (template : Template) (values : List String) :
    template.render values =
      match firstMissing values.length template.segments with
      | none => .ok (blocks values template.segments)
      | some (position, fault) => .error (.formatSyntax template.source position fault) := by
  rw [render, mapM_render]
  rcases firstMissing values.length template.segments with _ | ⟨position, fault⟩ <;> rfl

theorem render_eq_ok_iff {template : Template} {values : List String} {text : String} :
    template.render values = .ok text
      ↔ firstMissing values.length template.segments = none
        ∧ text = blocks values template.segments := by
  rw [render_eq]
  rcases firstMissing values.length template.segments with _ | ⟨position, fault⟩
  · simp only [Except.ok.injEq, true_and]
    exact eq_comm
  · simp

theorem render_eq_error_iff {template : Template} {values : List String} {error : CallError} :
    template.render values = .error error
      ↔ ∃ position fault, firstMissing values.length template.segments = some (position, fault)
        ∧ error = .formatSyntax template.source position fault := by
  rw [render_eq]
  rcases firstMissing values.length template.segments with _ | ⟨position, fault⟩
  · simp
  · constructor
    · rintro h
      cases h
      exact ⟨position, fault, rfl, rfl⟩
    · rintro ⟨position', fault', h, rfl⟩
      cases h
      rfl

theorem substitute_of_parse {source : String} {template : Template}
    (h : parse source = .ok template) (values : List String) :
    substitute source values = template.render values := by
  rw [substitute, h]
  rfl

section Missing

variable {count position : Nat} {segments : List Segment} {fault : TemplateFault}

theorem missing?_eq_none_iff {segment : Segment} :
    segment.missing? count = none ↔ segment.InRange count := by
  rcases segment with text | ⟨hole, position⟩
  · exact iff_of_true rfl nofun
  · simp [Segment.missing?, Segment.InRange, Segment.index?]

theorem firstMissing_eq_none_iff :
    firstMissing count segments = none ↔ ∀ segment ∈ segments, segment.InRange count := by
  simp only [firstMissing, List.findSome?_eq_none_iff, missing?_eq_none_iff]

/-- The first placeholder that lacks a value comes after segments that have theirs. -/
theorem exists_of_firstMissing (h : firstMissing count segments = some (position, fault)) :
    ∃ before hole after, segments = before ++ .placeholder hole position :: after
      ∧ (∀ segment ∈ before, segment.InRange count)
      ∧ count ≤ hole.index ∧ fault = .indexOutOfRange hole.index count := by
  obtain ⟨before, segment, after, heq, hs, hbefore⟩ := List.findSome?_eq_some_iff.mp h
  rcases segment with text | ⟨hole, place⟩
  · cases hs
  · simp only [Segment.missing?] at hs
    split at hs
    · rename_i hle
      cases hs
      exact ⟨before, hole, after, heq,
        fun segment hmem => missing?_eq_none_iff.mp (hbefore segment hmem), hle, rfl⟩
    · cases hs

theorem firstMissing_eq_some (h : firstMissing count segments = some (position, fault)) :
    ∃ index, fault = .indexOutOfRange index count := by
  obtain ⟨_, hole, _, _, _, _, hfault⟩ := exists_of_firstMissing h
  exact ⟨hole.index, hfault⟩

end Missing

theorem blocks_cons (values : List String) (segment : Segment) (rest : List Segment) :
    blocks values (segment :: rest) = segment.block values ++ blocks values rest := by
  rw [blocks, List.map_cons, String.join_cons, blocks]

section Joined

theorem blocks_prependText (values : List String) (text : String) (segments : List Segment) :
    blocks values (prependText text segments) = text ++ blocks values segments := by
  unfold prependText
  split
  · rw [blocks_cons, blocks_cons, Segment.block, Segment.block, String.append_assoc]
  · split
    · rename_i h
      rw [h, String.empty_append]
    · rw [blocks_cons, Segment.block]

theorem blocks_joinSegments (values : List String) : ∀ segments others : List Segment,
    blocks values (joinSegments segments others)
      = blocks values segments ++ blocks values others
  | [], others => (String.empty_append).symm
  | [.literal text], others => by
    rw [joinSegments, blocks_prependText]
    rfl
  | .placeholder hole position :: rest, others => by
    rw [joinSegments, blocks_cons, blocks_cons, blocks_joinSegments values rest others,
      String.append_assoc]
    simp
  | .literal text :: next :: rest, others => by
    rw [joinSegments, blocks_cons, blocks_cons, blocks_joinSegments values (next :: rest) others,
      String.append_assoc]
    simp

theorem firstMissing_joinSegments (count : Nat) (segments others : List Segment) :
    firstMissing count (joinSegments segments others)
      = (firstMissing count segments).or (firstMissing count others) := by
  have h := filterMap_joinSegments (Segment.missing? count) (fun _ => rfl) segments others
  rw [firstMissing, firstMissing, firstMissing, ← List.head?_filterMap, h, List.head?_append,
    List.head?_filterMap, List.head?_filterMap]

theorem max?_append : ∀ is js : List Nat, (is ++ js).max? = max is.max? js.max?
  | [], js => by simp
  | i :: is, js => by
    rw [List.cons_append, List.max?_cons, List.max?_cons, max?_append is js]
    rcases is.max? with _ | m <;> rcases js.max? with _ | n <;> simp

end Joined

section Positions

theorem block_mapPosition (values : List String) (f : Nat → Nat) (segment : Segment) :
    (segment.mapPosition f).block values = segment.block values := by
  cases segment <;> rfl

theorem index?_mapPosition (f : Nat → Nat) (segment : Segment) :
    (segment.mapPosition f).index? = segment.index? := by
  cases segment <;> rfl

theorem missing?_mapPosition (count : Nat) (f : Nat → Nat) (segment : Segment) :
    (segment.mapPosition f).missing? count
      = (segment.missing? count).map fun place => (f place.1, place.2) := by
  rcases segment with text | ⟨hole, position⟩
  · rfl
  · simp only [Segment.mapPosition, Segment.missing?]
    split <;> rfl

theorem blocks_mapPosition (values : List String) (f : Nat → Nat) (segments : List Segment) :
    blocks values (segments.map (Segment.mapPosition f)) = blocks values segments := by
  rw [blocks, List.map_map, blocks]
  congr 1
  exact List.map_congr_left fun segment _ => block_mapPosition values f segment

theorem firstMissing_mapPosition (count : Nat) (f : Nat → Nat) :
    ∀ segments : List Segment, firstMissing count (segments.map (Segment.mapPosition f))
      = (firstMissing count segments).map fun place => (f place.1, place.2)
  | [] => rfl
  | segment :: rest => by
    have ih := firstMissing_mapPosition count f rest
    rw [firstMissing] at ih ⊢
    rw [firstMissing, List.map_cons, List.findSome?_cons, List.findSome?_cons,
      missing?_mapPosition, ih]
    rcases segment.missing? count with _ | place <;> rfl

theorem startsLiteral_mapPosition (f : Nat → Nat) (segments : List Segment) :
    startsLiteral (segments.map (Segment.mapPosition f)) = startsLiteral segments := by
  rcases segments with _ | ⟨text | ⟨hole, position⟩, rest⟩ <;> rfl

theorem maximal_mapPosition (f : Nat → Nat) : ∀ segments : List Segment,
    Maximal (segments.map (Segment.mapPosition f)) ↔ Maximal segments
  | [] => Iff.rfl
  | .placeholder _ _ :: rest => maximal_mapPosition f rest
  | .literal text :: rest => by
    have hs := startsLiteral_mapPosition f rest
    have hm := maximal_mapPosition f rest
    change (text ≠ "" ∧ startsLiteral (rest.map (Segment.mapPosition f)) = false
      ∧ Maximal (rest.map (Segment.mapPosition f))) ↔ _
    rw [hs, hm]
    rfl

end Positions

end Template

end PathFunctions
