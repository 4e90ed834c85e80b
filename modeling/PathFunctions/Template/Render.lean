import PathFunctions.Template.Parse

/-!
# Filling templates

`render` puts values into the placeholders of a template and fails at the first placeholder whose
index is past the last value. A value narrower than its placeholder's width is padded with spaces;
widths are counted in characters and a wider value is never cut.
-/

namespace PathFunctions

/-- `value` with spaces before it if `alignment` is positive and after it otherwise. -/
def pad (value : String) (alignment : Int) : String :=
  if alignment.natAbs ≤ value.length then value
  else
    let spaces := String.ofList (List.replicate (alignment.natAbs - value.length) ' ')
    if 0 < alignment then spaces ++ value else value ++ spaces

theorem length_pad (value : String) (alignment : Int) :
    (pad value alignment).length = max alignment.natAbs value.length := by
  rw [pad]
  split
  · omega
  · split <;> simp <;> omega

def Segment.render (source : String) (values : List String) : Segment → Except CallError String
  | .literal text => .ok text
  | .placeholder hole position =>
    match values[hole.index]? with
    | some value => .ok (pad value hole.alignment)
    | none =>
      .error (.formatSyntax source position (.indexOutOfRange hole.index values.length))

namespace Template

def render (template : Template) (values : List String) : Except CallError String :=
  (template.segments.mapM (Segment.render template.source values)).map String.join

/-- Reads a template and fills it. -/
def substitute (source : String) (values : List String) : Except CallError String := do
  let template ← parse source
  template.render values

end Template

end PathFunctions
