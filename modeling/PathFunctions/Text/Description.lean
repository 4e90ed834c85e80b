import PathFunctions.Text.Quoted

/-!
# One-line descriptions of values

A record is described by its name and its fields between braces, a list between brackets, an
option by `None` or `Some(..)`. A record some of whose fields are not shown ends in `..`.
-/

namespace PathFunctions.Text

/-- The fields as `name: value`, in the order given. -/
def describeFields (fields : List (String × String)) : String :=
  ", ".intercalate (fields.map fun field => field.1 ++ ": " ++ field.2)

def describeRecord (name : String) (fields : List (String × String)) : String :=
  name ++ " \x7b " ++ describeFields fields ++ " \x7d"

/-- A record with more fields than are shown. -/
def describeOpenRecord (name : String) (fields : List (String × String)) : String :=
  name ++ " \x7b " ++ describeFields fields ++ ", .. \x7d"

def describeList (items : List String) : String :=
  "[" ++ ", ".intercalate items ++ "]"

def describeOption : Option String → String
  | none => "None"
  | some text => "Some(" ++ text ++ ")"

end PathFunctions.Text
