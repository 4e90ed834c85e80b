import PathFunctions.Double.Text

/-!
# Scalar values

The atomic values an argument or a result may hold, with the text each of them converts to and the
type a caller is told.
-/

namespace PathFunctions

/-- The types callers use for hints and for results. -/
inductive ResultType
  | number
  | string
  | boolean
  | nodeSet
  | navigator
  | any
  | error
  deriving DecidableEq

def ResultType.name : ResultType → String
  | .number => "Number"
  | .string => "String"
  | .boolean => "Boolean"
  | .nodeSet => "NodeSet"
  | .navigator => "Navigator"
  | .any => "Any"
  | .error => "Error"

inductive Scalar
  | boolean (value : Bool)
  | string (value : String)
  | integer (value : Int64)
  | double (value : Double)
  | untyped (value : String)
  deriving DecidableEq

namespace Scalar

def text : Scalar → String
  | boolean value => if value then "true" else "false"
  | string value | untyped value => value
  | integer value => toString value.toInt
  | double value => value.text

instance : ToString Scalar := ⟨text⟩

def resultType : Scalar → ResultType
  | boolean _ => .boolean
  | integer _ | double _ => .number
  | string _ | untyped _ => .string

end Scalar

end PathFunctions
