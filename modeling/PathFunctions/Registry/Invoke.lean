import PathFunctions.Registry.Basic

/-!
# Calling functions by name

A call looks the name up, checks the number of arguments and then runs the body, each only if what
comes before went well. The body may call on, and calls may nest as deeply as they like: `call` is
the least solution of its equation, so only a call that never ends is left without an outcome.
-/

namespace PathFunctions.Registry

variable {N : Type}

/-- The function that a call comes to run. -/
def target (registry : Registry N) (request : Request N) : Except CallError (Extension N) :=
  match registry.resolve request.qualifier request.name
      (request.args.map Argument.resultType) with
  | .error error => .error error
  | .ok extension =>
    if request.checked then (extension.checkArity request.args.length).map fun _ => extension
    else .ok extension

/-- What a function does when it is called. -/
def program (registry : Registry N) (extension : Extension N) (args : List (Argument N))
    (current : Option N) : Program N :=
  extension.body ⟨registry.directory, args, current⟩

def call (registry : Registry N) : Invocation N := fun request =>
  match registry.target request with
  | .error error => some (.error error)
  | .ok extension => registry.call.run (registry.program extension request.args request.current)
partial_fixpoint monotonicity by
  intro f g hle request
  have hkept : ∀ request outcome, f request = some outcome → g request = some outcome :=
    fun request outcome hf => by
      have hcall := hle request
      rw [hf] at hcall
      generalize g request = answer at hcall ⊢
      cases hcall
      rfl
  dsimp only
  cases registry.target request with
  | error error => exact .refl
  | ok extension =>
    dsimp only
    cases hrun : Invocation.run f (registry.program extension request.args request.current) with
    | none => exact .bot
    | some outcome => exact Invocation.run_mono hkept _ hrun ▸ .refl

/-- Calls a function by name and checks the number of arguments. -/
def invoke (registry : Registry N) (qualifier : Option String) (name : String)
    (args : List (Argument N)) (current : Option N) : Option (Outcome N) :=
  registry.call ⟨true, qualifier, name, args, current⟩

/-- Calls a function that is known already, without checking the number of arguments. -/
def callDirect (registry : Registry N) (extension : Extension N) (args : List (Argument N))
    (current : Option N) : Option (Outcome N) :=
  Invocation.run registry.call (registry.program extension args current)

section Call

variable {registry : Registry N} {request : Request N} {extension : Extension N}

theorem target_of_checkArity
    (hresolve : registry.resolve request.qualifier request.name
      (request.args.map Argument.resultType) = .ok extension)
    (harity : extension.checkArity request.args.length = .ok ()) :
    registry.target request = .ok extension := by
  rw [target, hresolve]
  dsimp only
  rw [harity]
  split <;> rfl

theorem call_of_target_error {error : CallError} (h : registry.target request = .error error) :
    registry.call request = some (.error error) := by
  rw [call, h]

theorem call_of_target (h : registry.target request = .ok extension) :
    registry.call request
      = registry.callDirect extension request.args request.current := by
  rw [call, h]
  rfl

/-- What holds of every call that is answered: it holds of the calls that come to no body, and of a
body run if it holds of the calls that the body makes. -/
theorem call_induction {motive : Request N → Outcome N → Prop}
    (refused : ∀ request error, registry.target request = .error error →
      motive request (.error error))
    (entered : ∀ invocation : Invocation N,
      (∀ request outcome, invocation request = some outcome → motive request outcome) →
        ∀ request extension outcome, registry.target request = .ok extension →
          invocation.run (registry.program extension request.args request.current) = some outcome →
            motive request outcome) :
    ∀ request outcome, registry.call request = some outcome → motive request outcome := by
  refine call.partial_correctness registry motive fun invocation ih request outcome h => ?_
  cases htarget : registry.target request with
  | error error =>
    rw [htarget] at h
    exact Option.some.inj h ▸ refused request error htarget
  | ok extension =>
    rw [htarget] at h
    exact entered invocation ih request extension outcome htarget h

end Call

end PathFunctions.Registry
