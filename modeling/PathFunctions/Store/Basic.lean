import PathFunctions.Node.Basic

/-!
# The store

Nodes are kept in the order they are built and numbered from zero. What a node is made of is fixed
then: a container lists the attributes and children it was built around, which are older than it
and may be listed elsewhere too. Only the link to its parent changes, to the container built last
among those that list it, and the text of a container may be noted down once it has been read.
-/

namespace PathFunctions

inductive Content
  | text (value : String)
  | comment (value : String)
  | attribute (name value : String)
  | element (name : String) (uri : Option String) (attributes children : List Nat)
  | document (uri : Option String) (attributes children : List Nat)

namespace Content

def kind : Content → NodeKind
  | .text _ => .text
  | .comment _ => .comment
  | .attribute .. => .attribute
  | .element .. => .element
  | .document .. => .document

def name : Content → Option QName
  | .attribute name _ | .element name .. => some (.ofLocal name)
  | .text _ | .comment _ | .document .. => none

/-- What a text, a comment or an attribute holds. -/
def value : Content → Option String
  | .text value | .comment value | .attribute _ value => some value
  | .element .. | .document .. => none

def uri : Content → Option String
  | .element _ uri .. | .document uri .. => uri
  | .text _ | .comment _ | .attribute .. => none

def attributes : Content → List Nat
  | .element _ _ attributes _ | .document _ attributes _ => attributes
  | .text _ | .comment _ | .attribute .. => []

def children : Content → List Nat
  | .element _ _ _ children | .document _ _ children => children
  | .text _ | .comment _ | .attribute .. => []

/-- The nodes it is built around. -/
def listed (content : Content) : List Nat := content.attributes ++ content.children

end Content

structure Record where
  content : Content
  parent : Option Nat
  noted : Option String

structure Store where
  records : Array Record

namespace Store

def empty : Store := ⟨#[]⟩

def size (s : Store) : Nat := s.records.size

/-- What a node is made of; a number that no node has reads as an empty document. -/
def content (s : Store) (i : Nat) : Content :=
  (s.records[i]?.map Record.content).getD (.document none [] [])

def parent (s : Store) (i : Nat) : Option Nat := s.records[i]?.bind Record.parent

def noted (s : Store) (i : Nat) : Option String := s.records[i]?.bind Record.noted

end Store

end PathFunctions
