import PathFunctions.Store.BaseUri
import PathFunctions.Store.Text

/-!
# Nodes of a store

`Handle s` is the type of the nodes of the store `s`; two of them are equal when they are the same
node.
-/

namespace PathFunctions.Store

structure Handle (s : Store) where
  id : Nat
  deriving DecidableEq

instance (s : Store) : Node (Handle s) where
  kind node := (s.content node.id).kind
  name node := (s.content node.id).name
  stringValue node := s.text node.id
  baseUri node := s.baseUri node.id
  parent node := (s.parent node.id).map Handle.mk
  children node := (s.content node.id).children.map Handle.mk
  attributes node := (s.content node.id).attributes.map Handle.mk

end PathFunctions.Store
