import PathFunctions.Node.Basic

/-!
# Paths

A path leads from a node to a list of nodes. Each of its steps is taken from every node found so
far, in order, and what it finds is joined in that order; a node reached twice is listed twice.
-/

namespace PathFunctions

inductive PathStep
  | child (index : Nat)
  | children
  | attributes
  | parent
  | attribute (name : String)
  | elements (name : String)

variable {N : Type} [Node N]

/-- What one step finds from a node. -/
def PathStep.nodes : PathStep → N → List N
  | .child index, node => (Node.children node)[index]?.toList
  | .children, node => Node.children node
  | .attributes, node => Node.attributes node
  | .parent, node => (Node.parent node).toList
  | .attribute name, node => (Node.attribute? name node).toList
  | .elements name, node => Node.elements name node

def follow : List PathStep → N → List N
  | [], start => [start]
  | step :: path, start => (step.nodes start).flatMap (follow path)

theorem follow_append :
    ∀ (path more : List PathStep) (start : N),
      follow (path ++ more) start = (follow path start).flatMap (follow more)
  | [], more, start => by simp [follow]
  | step :: path, more, start => by
    have h : follow (path ++ more) = fun n : N => (follow path n).flatMap (follow more) :=
      funext (follow_append path more)
    rw [List.cons_append, follow, follow, h, List.flatMap_assoc]

end PathFunctions
