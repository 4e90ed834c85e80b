import PathFunctions.Error
import PathFunctions.Scalar
import PathFunctions.Text.Description

/-!
# Signatures

What a caller can know of an extension function without calling it. The number of arguments has a
least value and, unless the function takes any number, a greatest; the types are only told.
-/

namespace PathFunctions

structure Signature where
  name : String
  minArgs : Nat
  maxArgs : Option Nat
  returnType : ResultType
  argTypes : Option (List ResultType)
  deriving DecidableEq

namespace Signature

def accepts (signature : Signature) (count : Nat) : Bool :=
  signature.minArgs ≤ count && signature.maxArgs.all fun max => count ≤ max

theorem accepts_iff {signature : Signature} {count : Nat} :
    signature.accepts count = true
      ↔ signature.minArgs ≤ count ∧ ∀ max, signature.maxArgs = some max → count ≤ max := by
  cases h : signature.maxArgs <;> simp [accepts, h]

def checkArity (signature : Signature) (count : Nat) : Except CallError Unit :=
  if signature.accepts count then .ok ()
  else .error (.wrongArity signature.name count signature.minArgs signature.maxArgs)

theorem checkArity_eq_ok_iff {signature : Signature} {count : Nat} :
    signature.checkArity count = .ok () ↔ signature.accepts count = true := by
  simp only [checkArity]
  split <;> simp_all

def describe (signature : Signature) : String :=
  Text.describeOpenRecord "FunctionDescriptor" [("name", Text.quote signature.name),
    ("min_args", toString signature.minArgs),
    ("max_args", Text.describeOption (signature.maxArgs.map toString)),
    ("return_type", signature.returnType.name),
    ("arg_types", Text.describeOption (signature.argTypes.map fun types =>
      Text.describeList (types.map ResultType.name)))]

end Signature

end PathFunctions
