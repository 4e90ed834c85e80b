import PathFunctions.Node.Basic

/-!
# Bare text nodes

The smallest document model: text nodes with nothing around them.
-/

namespace PathFunctions

structure TextNode where
  value : String
  deriving DecidableEq

instance : Node TextNode where
  kind _ := .text
  name _ := none
  stringValue node := node.value
  parent _ := none
  children _ := []
  attributes _ := []

end PathFunctions
