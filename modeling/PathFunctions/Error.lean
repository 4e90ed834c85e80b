import PathFunctions.Text.Quoted

/-!
# What a call can fail with

A call fails because no function has its name, because the function does not take as many
arguments, or because a template cannot be read or lacks a value. `CallError.message` words each
of them and ends in its code.
-/

namespace PathFunctions

/-- What is wrong with a template at one of its braces. -/
inductive TemplateFault
  | indexOutOfRange (index count : Nat)
  | missingIndex
  | indexTooLarge
  | unterminatedPlaceholder
  | unmatchedClosingBrace
  | invalidAlignment
  deriving DecidableEq

def TemplateFault.message : TemplateFault → String
  | .indexOutOfRange index count =>
    "index " ++ toString index ++ " is out of range for " ++ toString count ++ " value(s)"
  | .missingIndex => "expected a placeholder index after '\x7b'"
  | .indexTooLarge => "placeholder index is too large"
  | .unterminatedPlaceholder => "placeholder is not terminated by '\x7d'"
  | .unmatchedClosingBrace => "unmatched '\x7d' (use '\x7d\x7d' for a literal brace)"
  | .invalidAlignment => "invalid alignment"

/-- The standard codes of path expressions. -/
inductive ErrorCode
  | invalidValue
  | unknownFunction
  deriving DecidableEq

def ErrorCode.text : ErrorCode → String
  | .invalidValue => "err:FORG0001"
  | .unknownFunction => "err:XPST0017"

inductive CallError
  | functionNotFound (name : String)
  | wrongArity (name : String) (arity min : Nat) (max : Option Nat)
  | formatSyntax (template : String) (position : Nat) (fault : TemplateFault)
  deriving DecidableEq

namespace CallError

def code : CallError → ErrorCode
  | functionNotFound _ | wrongArity .. => .unknownFunction
  | formatSyntax .. => .invalidValue

/-- How many arguments are expected. -/
def arityRange (min : Nat) : Option Nat → String
  | none => "at least " ++ toString min
  | some max => if max = min then toString min else toString min ++ "..=" ++ toString max

/-- What the message says before the code. -/
def detail : CallError → String
  | functionNotFound name => "function \"" ++ name ++ "\" not found"
  | wrongArity name arity min max =>
    "function \"" ++ name ++ "\" cannot be called with " ++ toString arity
      ++ " argument(s); expected " ++ arityRange min max
  | formatSyntax template position fault =>
    "invalid format template " ++ Text.quote template ++ " at offset " ++ toString position
      ++ ": " ++ fault.message

def message (error : CallError) : String :=
  error.detail ++ " (" ++ error.code.text ++ ")"

instance : ToString CallError := ⟨message⟩

/-- The index no value stands for, if that is what failed. -/
def formatIndex? : CallError → Option Nat
  | formatSyntax _ _ (.indexOutOfRange index _) => some index
  | _ => none

end CallError

end PathFunctions
