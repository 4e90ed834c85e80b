import PathFunctions.Error

/-!
# Templates

A template is literal text with placeholders for values. A placeholder names a value by its index
and may ask for a least width, which is positive to put the value at the right end of the spaces
and negative to put it at the left.
-/

namespace PathFunctions

structure Placeholder where
  index : Nat
  alignment : Int
  deriving DecidableEq

/-- A run of literal text, or a placeholder with the byte offset of its opening brace. -/
inductive Segment
  | literal (text : String)
  | placeholder (hole : Placeholder) (position : Nat)
  deriving DecidableEq

structure Template where
  source : String
  segments : List Segment
  deriving DecidableEq

def Segment.index? : Segment → Option Nat
  | .literal _ => none
  | .placeholder hole _ => some hole.index

/-- The highest index a placeholder names. -/
def Template.maxIndex? (template : Template) : Option Nat :=
  (template.segments.filterMap Segment.index?).max?

end PathFunctions
