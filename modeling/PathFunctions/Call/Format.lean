import PathFunctions.Call.Argument
import PathFunctions.Template.Render

/-!
# Formatting

`format` takes a template and values for it. The values are the texts of the flattened arguments,
so a sequence fills as many places as it has nodes. Without a template there is nothing to write.
-/

namespace PathFunctions

variable {N : Type} [Node N]

def format (args : List (Argument N)) : Except CallError (List (Item N)) :=
  match args with
  | [] => .ok [.atomic (.string "")]
  | template :: values =>
    (Template.substitute template.text ((flatten values).map Item.text)).map fun text =>
      [.atomic (.string text)]

end PathFunctions
