import PathFunctions.Text.Description

/-!
# Nodes

What a document model offers of a node: its kind and name, the text it stands for, and the nodes
around it. Functions are written for any type of nodes that has these; only the base URI has a
default, that there is none.
-/

namespace PathFunctions

inductive NodeKind
  | document
  | element
  | attribute
  | text
  | comment
  deriving DecidableEq

def NodeKind.name : NodeKind → String
  | .document => "Document"
  | .element => "Element"
  | .attribute => "Attribute"
  | .text => "Text"
  | .comment => "Comment"

structure QName where
  qualifier : Option String
  localName : String
  deriving DecidableEq

/-- A name without a qualifier, whatever it looks like. -/
def QName.ofLocal (name : String) : QName := ⟨none, name⟩

def QName.describe (name : QName) : String :=
  Text.describeRecord "QName" [("prefix", Text.describeOption (name.qualifier.map Text.quote)),
    ("local", Text.quote name.localName)]

class Node (N : Type) where
  kind : N → NodeKind
  name : N → Option QName
  stringValue : N → String
  baseUri : N → Option String := fun _ => none
  parent : N → Option N
  children : N → List N
  attributes : N → List N

namespace Node

variable {N : Type} [Node N]

def hasLocalName (name : String) (node : N) : Bool :=
  (Node.name node).any fun q => q.localName = name

/-- The child elements of that local name. -/
def elements (name : String) (node : N) : List N :=
  (children node).filter fun child => kind child = .element && hasLocalName name child

/-- The first attribute of that local name. -/
def attribute? (name : String) (node : N) : Option N :=
  (attributes node).find? (hasLocalName name)

end Node

end PathFunctions
