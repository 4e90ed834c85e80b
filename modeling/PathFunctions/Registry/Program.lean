import PathFunctions.Call.Argument
import PathFunctions.Registry.Signature

/-!
# Programs of extension functions

The body of an extension function sees one call of it: the arguments, the current node and the
directory of the registry it is called in. It answers with a program, which is either done or
calls another function of the registry by name and goes on from the outcome. What such a call
means is left to whoever runs the program.
-/

namespace PathFunctions

abbrev Outcome (N : Type) := Except CallError (List (Item N))

/-- What functions may know of the registry they are called in. The signatures are listed when they
are asked for. -/
structure Directory where
  signatures : Thunk (List Signature)
  whitespace : Bool

def Directory.names (directory : Directory) : List String :=
  directory.signatures.get.map Signature.name

structure Call (N : Type) where
  directory : Directory
  args : List (Argument N)
  current : Option N

/-- A call by name, as it is asked for. The number of arguments is checked unless the caller looks
the function up and goes past the check. -/
structure Request (N : Type) where
  checked : Bool
  qualifier : Option String
  name : String
  args : List (Argument N)
  current : Option N

inductive Program (N : Type)
  | done (outcome : Outcome N)
  | call (request : Request N) (next : Outcome N → Program N)

abbrev Body (N : Type) := Call N → Program N

/-- How calls are answered. A call that never ends has no outcome. -/
abbrev Invocation (N : Type) := Request N → Option (Outcome N)

/-- Runs a program with its calls answered in this way. -/
def Invocation.run {N : Type} (invocation : Invocation N) : Program N → Option (Outcome N)
  | .done outcome => some outcome
  | .call request next =>
    (invocation request).bind fun outcome => invocation.run (next outcome)

/-- If every call that is answered keeps its outcome, so does the program. -/
theorem Invocation.run_mono {N : Type} {f g : Invocation N}
    (h : ∀ request outcome, f request = some outcome → g request = some outcome) :
    ∀ (program : Program N) {outcome : Outcome N},
      f.run program = some outcome → g.run program = some outcome
  | .done _, _, hr => hr
  | .call request next, _, hr => by
    simp only [run, Option.bind_eq_some_iff] at hr ⊢
    obtain ⟨answer, ha, hn⟩ := hr
    exact ⟨answer, h request answer ha, run_mono h (next answer) hn⟩

structure Extension (N : Type) extends Signature where
  body : Body N

end PathFunctions
