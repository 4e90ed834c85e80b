import PathFunctions.Call.Sequence
import PathFunctions.Node.Basic
import PathFunctions.Scalar

/-!
# Arguments and results

An argument is a scalar or a sequence of nodes, a result a list of items, each a node or a scalar.
`flatten` turns arguments into items: every node becomes an item of its own, so an empty sequence
leaves nothing behind.
-/

namespace PathFunctions

inductive Argument (N : Type)
  | scalar (value : Scalar)
  | nodes (sequence : NodeSequence N)

inductive Item (N : Type)
  | node (n : N)
  | atomic (value : Scalar)
  deriving DecidableEq

variable {N : Type}

def Argument.resultType : Argument N → ResultType
  | .scalar value => value.resultType
  | .nodes _ => .nodeSet

def Argument.items : Argument N → List (Item N)
  | .scalar value => [.atomic value]
  | .nodes sequence => sequence.toList.map .node

def flatten (args : List (Argument N)) : List (Item N) := args.flatMap Argument.items

variable [Node N]

def Item.text : Item N → String
  | .node n => Node.stringValue n
  | .atomic value => value.text

/-- The text of a result is that of its first item, if it has one. -/
def textOf (items : List (Item N)) : String := (items.head?.map Item.text).getD ""

/-- The text of a scalar, or of the first node of a sequence if it has one. -/
def Argument.text : Argument N → String
  | .scalar value => value.text
  | .nodes sequence => (sequence.next.1.map Node.stringValue).getD ""

end PathFunctions
