import PathFunctions.Registry.Invoke

/-!
# How calls end

A call ends when the body it comes to ends, and that when all the calls the body makes end, one
after another (`Ends`, `Finishes`). The calls that have an outcome are the calls that end, and it is
the outcome they end with (`call_eq_some_iff`); the bodies that run on the way are fixed as well
(`Ends.unique`). Calls that each begin with another of them never end (`call_eq_none`).
-/

namespace PathFunctions

variable {N : Type}

/-- The body of a function starts to run, with these arguments and this current node. -/
structure Entry (N : Type) where
  name : String
  args : List (Argument N)
  current : Option N

namespace Registry

mutual

/-- A call comes to an outcome, and these bodies start on the way, in this order. -/
inductive Ends (registry : Registry N) : Request N → Outcome N → List (Entry N) → Prop
  | refused {request : Request N} {error : CallError} :
      registry.target request = .error error → Ends registry request (.error error) []
  | entered {request : Request N} {extension : Extension N} {outcome : Outcome N}
      {entries : List (Entry N)} : registry.target request = .ok extension →
        Finishes registry (registry.program extension request.args request.current)
          outcome entries →
        Ends registry request outcome (⟨request.name, request.args, request.current⟩ :: entries)

/-- A program comes to an outcome, and its calls start these bodies. -/
inductive Finishes (registry : Registry N) : Program N → Outcome N → List (Entry N) → Prop
  | done (outcome : Outcome N) : Finishes registry (.done outcome) outcome []
  | call {request : Request N} {next : Outcome N → Program N} {answer outcome : Outcome N}
      {entries later : List (Entry N)} : Ends registry request answer entries →
        Finishes registry (next answer) outcome later →
        Finishes registry (.call request next) outcome (entries ++ later)

end

variable {registry : Registry N} {request : Request N} {program : Program N}
  {outcome other : Outcome N} {entries others : List (Entry N)}

mutual

theorem Ends.call_eq {request : Request N} {outcome : Outcome N} {entries : List (Entry N)} :
    registry.Ends request outcome entries → registry.call request = some outcome
  | .refused h => call_of_target_error h
  | .entered h hbody => (call_of_target h).trans hbody.run_eq

theorem Finishes.run_eq {program : Program N} {outcome : Outcome N} {entries : List (Entry N)} :
    registry.Finishes program outcome entries → Invocation.run registry.call program = some outcome
  | .done _ => rfl
  | .call hcall hnext => by
    rw [Invocation.run, hcall.call_eq]
    exact hnext.run_eq

end

theorem exists_finishes {invocation : Invocation N}
    (h : ∀ request outcome, invocation request = some outcome →
      ∃ entries, registry.Ends request outcome entries) :
    ∀ (program : Program N) {outcome : Outcome N}, invocation.run program = some outcome →
      ∃ entries, registry.Finishes program outcome entries
  | .done outcome, _, hr => ⟨[], Option.some.inj hr ▸ .done outcome⟩
  | .call request next, _, hr => by
    rw [Invocation.run, Option.bind_eq_some_iff] at hr
    obtain ⟨answer, hanswer, hnext⟩ := hr
    obtain ⟨entries, hends⟩ := h request answer hanswer
    obtain ⟨later, hlater⟩ := exists_finishes h (next answer) hnext
    exact ⟨entries ++ later, .call hends hlater⟩

theorem exists_ends : ∀ (request : Request N) (outcome : Outcome N),
    registry.call request = some outcome → ∃ entries, registry.Ends request outcome entries := by
  refine call_induction (fun request error h => ⟨[], .refused h⟩)
    fun invocation ih request extension outcome h hrun => ?_
  obtain ⟨entries, hbody⟩ := exists_finishes ih _ hrun
  exact ⟨_, .entered h hbody⟩

theorem call_eq_some_iff :
    registry.call request = some outcome ↔ ∃ entries, registry.Ends request outcome entries :=
  ⟨exists_ends request outcome, fun ⟨_, h⟩ => h.call_eq⟩

mutual

theorem Ends.entries_eq {request : Request N} {outcome other : Outcome N}
    {entries others : List (Entry N)} : registry.Ends request outcome entries →
      registry.Ends request other others → entries = others
  | .refused _, .refused _ => rfl
  | .refused h, .entered h' _ => nomatch h.symm.trans h'
  | .entered h _, .refused h' => nomatch h.symm.trans h'
  | .entered h hbody, .entered h' hbody' => by
    cases h.symm.trans h'
    rw [hbody.entries_eq hbody']

theorem Finishes.entries_eq {program : Program N} {outcome other : Outcome N}
    {entries others : List (Entry N)} : registry.Finishes program outcome entries →
      registry.Finishes program other others → entries = others
  | .done _, .done _ => rfl
  | .call hcall hnext, .call hcall' hnext' => by
    cases hcall.call_eq.symm.trans hcall'.call_eq
    rw [hcall.entries_eq hcall', hnext.entries_eq hnext']

end

/-- A call ends in one way only. -/
theorem Ends.unique (h : registry.Ends request outcome entries)
    (h' : registry.Ends request other others) : outcome = other ∧ entries = others :=
  ⟨Option.some.inj (h.call_eq.symm.trans h'.call_eq), h.entries_eq h'⟩

/-- Calls never end if the body of each begins with another of them. -/
theorem call_eq_none {requests : Request N → Prop}
    (h : ∀ request, requests request → ∃ extension later next,
      registry.target request = .ok extension
        ∧ registry.program extension request.args request.current = .call later next
        ∧ requests later)
    (hrequest : requests request) : registry.call request = none := by
  have hnever : ∀ request outcome, registry.call request = some outcome → ¬ requests request := by
    refine call_induction (fun request error herror hrequest => ?_)
      fun invocation ih request extension outcome hok hrun hrequest => ?_
    · obtain ⟨extension, -, -, hok, -⟩ := h request hrequest
      cases herror.symm.trans hok
    · obtain ⟨found, later, next, hfound, hbody, hlater⟩ := h request hrequest
      cases hok.symm.trans hfound
      rw [hbody, Invocation.run, Option.bind_eq_some_iff] at hrun
      obtain ⟨answer, hanswer, -⟩ := hrun
      exact ih later answer hanswer hlater
  exact Option.eq_none_iff_forall_ne_some.mpr fun outcome hcall =>
    hnever request outcome hcall hrequest

end Registry

end PathFunctions
