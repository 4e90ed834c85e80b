import PathFunctions.Registry.Program
import Std.Data.TreeMap

/-!
# The registry

A registry holds extension functions by name and says whether white space counts. It is asked with
a qualifier and with the types of the arguments, but the name alone decides. Names are listed in
the order of their characters. There are no variables, and documents have no order among them.
-/

namespace PathFunctions

structure Registry (N : Type) where
  extensions : Std.TreeMap String (Extension N)
  whitespace : Bool

structure Variable where
  name : String
  resultType : ResultType
  deriving DecidableEq

namespace Registry

variable {N : Type}

/-- White space counts unless it is switched off. -/
def empty : Registry N := ⟨{}, true⟩

/-- A function takes the place of one with the same name. -/
def register (registry : Registry N) (extension : Extension N) : Registry N :=
  { registry with extensions := registry.extensions.insert extension.name extension }

def resolve (registry : Registry N) (_qualifier : Option String) (name : String)
    (_hints : List ResultType) : Except CallError (Extension N) :=
  match registry.extensions[name]? with
  | some extension => .ok extension
  | none => .error (.functionNotFound name)

theorem resolve_register (registry : Registry N) (extension : Extension N)
    (qualifier : Option String) (name : String) (hints : List ResultType) :
    (registry.register extension).resolve qualifier name hints
      = if extension.name = name then .ok extension
        else registry.resolve qualifier name hints := by
  by_cases h : extension.name = name
  · simp [resolve, register, h]
  · simp [resolve, register, Std.TreeMap.getElem?_insert, h]

def names (registry : Registry N) : List String := registry.extensions.keys

def size (registry : Registry N) : Nat := registry.extensions.size

def isEmpty (registry : Registry N) : Bool := registry.extensions.isEmpty

def directory (registry : Registry N) : Directory :=
  ⟨.mk fun _ => registry.extensions.values.map Extension.toSignature, registry.whitespace⟩

def resolveVariable (_registry : Registry N) (_qualifier : Option String) (_name : String) :
    Option Variable := none

/-- Whether white space counts below a node. -/
def preservesWhitespace (registry : Registry N) (_node : N) : Bool := registry.whitespace

def compareDocuments (_registry : Registry N) (_uri _other : String) : Ordering := .eq

def describe (registry : Registry N) : String :=
  Text.describeRecord "ExtensionContext" [
    ("functions", Text.describeList (registry.names.map Text.quote)),
    ("whitespace", toString registry.whitespace)]

end Registry

end PathFunctions
