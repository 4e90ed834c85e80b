import PathFunctions.Template.Basic
import PathFunctions.Text.Description

/-!
# Templates described

The description of a template shows its source and its segments in order.
-/

namespace PathFunctions

open Text

def Segment.describe : Segment → String
  | .literal text => "Literal(" ++ quote text ++ ")"
  | .placeholder hole position =>
    describeRecord "Placeholder" [("index", toString hole.index),
      ("alignment", toString hole.alignment), ("position", toString position)]

def Template.describe (template : Template) : String :=
  describeRecord "Template" [("source", quote template.source),
    ("segments", describeList (template.segments.map Segment.describe))]

end PathFunctions
