import PathFunctions.Store.Handle

/-!
# What can be seen of a node

A view shows a node's kind and name, its text and base URI, the kind and name of its parent, and
how many children and attributes it lists. Looking reads the text, so the store may note it down.
-/

namespace PathFunctions

structure NodeView where
  kind : NodeKind
  name : Option QName
  text : String
  uri : Option String
  parent : Option (NodeKind × Option QName)
  children : Nat
  attributes : Nat
  deriving DecidableEq

/-- The description of a node: its kind, its name and what it holds itself. -/
def Content.describe (content : Content) : String :=
  Text.describeRecord "SimpleNode" [("kind", content.kind.name),
    ("name", Text.describeOption (content.name.map QName.describe)),
    ("value", Text.describeOption (content.value.map Text.quote))]

namespace Store

def view (s : Store) (i : Nat) : NodeView × Store :=
  let content := s.content i
  let (text, read) := s.read i
  ({ kind := content.kind
     name := content.name
     text := text
     uri := s.baseUri i
     parent := (s.parent i).map fun parent => ((s.content parent).kind, (s.content parent).name)
     children := content.children.length
     attributes := content.attributes.length }, read)

/-- Looks at some nodes one after another. -/
def viewAll : List Nat → Store → List NodeView × Store
  | [], s => ([], s)
  | i :: is, s =>
    let (view, s) := s.view i
    let (views, s) := viewAll is s
    (view :: views, s)

end Store

end PathFunctions
