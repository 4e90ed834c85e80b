import PathFunctions.Registry.Basic
import PathFunctions.Registry.Body

/-!
# Setting up a registry

A registry is set up by steps, taken in order from the empty one. Of the functions registered
under one name the last stays, and so does the last word on white space.
-/

namespace PathFunctions

inductive SetupStep (N : Type)
  | extension (extension : Extension N)
  | format
  | whitespace (significant : Bool)

variable {N : Type} [Node N]

namespace Registry

def apply (registry : Registry N) : SetupStep N → Registry N
  | .extension extension => registry.register extension
  | .format => registry.register .format
  | .whitespace significant => { registry with whitespace := significant }

def ofSteps (steps : List (SetupStep N)) : Registry N := steps.foldl apply empty

/-- The registry with `format` alone. -/
def stringFormat : Registry N := ofSteps [.format]

end Registry

end PathFunctions
