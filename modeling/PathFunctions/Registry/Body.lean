import PathFunctions.Call.Format
import PathFunctions.Registry.Program

/-!
# Bodies of extension functions

`format` is the one function that comes with the library. The other bodies are small: they answer
with a fixed text, with what they are called with, or with what they know of their registry, fail,
or hand the call on to another function.
-/

namespace PathFunctions

variable {N : Type}

/-- One string for each of the texts. -/
def stringItems (texts : List String) : List (Item N) :=
  texts.map fun text => .atomic (.string text)

namespace Body

def format [Node N] : Body N := fun call => .done (PathFunctions.format call.args)

def constant (text : String) : Body N := fun _ => .done (.ok (stringItems [text]))

def nothing : Body N := fun _ => .done (.ok [])

def echo : Body N := fun call => .done (.ok (flatten call.args))

/-- The types of the arguments. -/
def argumentTypes : Body N := fun call =>
  .done (.ok (stringItems (call.args.map fun arg => arg.resultType.name)))

def currentNode : Body N := fun call => .done (.ok (call.current.toList.map .node))

/-- The names of the registry. -/
def names : Body N := fun call => .done (.ok (stringItems call.directory.names))

/-- Fails as a call of an unknown function does. -/
def unknown (name : String) : Body N := fun _ => .done (.error (.functionNotFound name))

/-- Calls the function of that name with the same arguments and current node. -/
def delegate (name : String) : Body N := fun call =>
  .call ⟨true, none, name, call.args, call.current⟩ .done

end Body

/-- `format` takes a template and any number of values. -/
def Extension.format [Node N] : Extension N where
  name := "format"
  minArgs := 1
  maxArgs := none
  returnType := .any
  argTypes := none
  body := Body.format

end PathFunctions
