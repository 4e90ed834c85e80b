import Mathlib.Data.List.Chain
import PathFunctions.Proofs.Calls
import PathFunctions.Proofs.Registrations

/-!
# Functions that hand their calls on

A call that functions hand on to each other takes a path of names, each of them registered and
called with a number of arguments it accepts. A call of the first name ends just as a call of the
last one does, and the bodies on the path start before any other (`Path.ends_iff`). So the first
name that is refused decides, and where none is, the body at the end; a path that comes back to its
first name never gets there (`Path.invoke_of_circle`).
-/

namespace PathFunctions.Registry

variable {N : Type}

/-- Why a call with so many arguments does not come to run a body. -/
def refusal? (registry : Registry N) (name : String) (count : Nat) : Option CallError :=
  match registry.extensions[name]? with
  | none => some (.functionNotFound name)
  | some extension =>
    if extension.accepts count then none
    else some (.wrongArity extension.name count extension.minArgs extension.maxArgs)

/-- If a function has the first name, it does nothing but call the second. -/
def Delegates (registry : Registry N) (name next : String) : Prop :=
  ∀ extension, registry.extensions[name]? = some extension → extension.body = .delegate next

/-- A call with so many arguments is handed on from name to name and arrives at the last. -/
inductive Path (registry : Registry N) (count : Nat) : String → List String → String → Prop
  | here (name : String) : Path registry count name [] name
  | step {name next last : String} {between : List String} :
      registry.refusal? name count = none → registry.Delegates name next →
        Path registry count next between last → Path registry count name (name :: between) last

/-- A call with these arguments and this current node that is handed on, and then to the name. -/
def LeadsTo (registry : Registry N) (args : List (Argument N)) (current : Option N) (name : String)
    (request : Request N) : Prop :=
  ∃ qualifier passed between, request = ⟨true, qualifier, passed, args, current⟩
    ∧ between ≠ [] ∧ registry.Path args.length passed between name

section Call

variable {registry : Registry N} {name next last : String} {count : Nat} {error : CallError}
  {extension : Extension N} {args : List (Argument N)} {current : Option N} {outcome : Outcome N}
  {entries : List (Entry N)}

theorem refusal?_eq_none_iff :
    registry.refusal? name count = none
      ↔ ∃ extension, registry.extensions[name]? = some extension
        ∧ extension.accepts count = true := by
  rw [refusal?]
  cases registry.extensions[name]? <;> simp

theorem accepts_of_refusal? (hext : registry.extensions[name]? = some extension)
    (h : registry.refusal? name count = none) : extension.accepts count = true := by
  obtain ⟨found, hfound, haccepts⟩ := refusal?_eq_none_iff.mp h
  rw [Option.some.inj (hext.symm.trans hfound), haccepts]

theorem target_of_refusal? (qualifier : Option String) (current : Option N)
    (h : registry.refusal? name args.length = some error) :
    registry.target ⟨true, qualifier, name, args, current⟩ = .error error := by
  rw [refusal?] at h
  rw [target, resolve]
  cases hext : registry.extensions[name]? with
  | none =>
    rw [hext] at h
    cases h
    rfl
  | some extension =>
    by_cases haccepts : extension.accepts args.length = true
    · simp [hext, haccepts] at h
    · simp only [hext, haccepts, Bool.false_eq_true, if_false, Option.some.injEq] at h
      simp [Signature.checkArity, haccepts, h, Except.map]

theorem target_of_accepts (qualifier : Option String) (current : Option N)
    (hext : registry.extensions[name]? = some extension)
    (haccepts : extension.accepts args.length = true) :
    registry.target ⟨true, qualifier, name, args, current⟩ = .ok extension :=
  target_of_checkArity (resolve_eq_ok_iff.mpr hext) (Signature.checkArity_eq_ok_iff.mpr haccepts)

theorem ends_of_refusal?_iff (qualifier : Option String)
    (h : registry.refusal? name args.length = some error) :
    registry.Ends ⟨true, qualifier, name, args, current⟩ outcome entries
      ↔ outcome = .error error ∧ entries = [] := by
  have hends : registry.Ends ⟨true, qualifier, name, args, current⟩ (.error error) [] :=
    .refused (target_of_refusal? qualifier current h)
  refine ⟨fun h' => h'.unique hends, ?_⟩
  rintro ⟨rfl, rfl⟩
  exact hends

theorem ends_of_accepts_iff (qualifier : Option String)
    (hext : registry.extensions[name]? = some extension)
    (haccepts : extension.accepts args.length = true) :
    registry.Ends ⟨true, qualifier, name, args, current⟩ outcome entries
      ↔ ∃ later, entries = ⟨name, args, current⟩ :: later
        ∧ registry.Finishes (registry.program extension args current) outcome later := by
  have htarget := target_of_accepts qualifier current hext haccepts
  constructor
  · rintro (hrefused | ⟨hentered, hbody⟩)
    · cases htarget.symm.trans hrefused
    · cases htarget.symm.trans hentered
      exact ⟨_, rfl, hbody⟩
  · rintro ⟨later, rfl, hbody⟩
    exact .entered htarget hbody

theorem finishes_delegate_iff (hbody : extension.body = .delegate next) :
    registry.Finishes (registry.program extension args current) outcome entries
      ↔ registry.Ends ⟨true, none, next, args, current⟩ outcome entries := by
  rw [program, hbody, Body.delegate]
  constructor
  · rintro (_ | ⟨hcall, hdone⟩)
    cases hdone
    rwa [List.append_nil]
  · intro hcall
    rw [← List.append_nil entries]
    exact .call hcall (.done outcome)

theorem ends_qualifier_iff (qualifier : Option String) :
    registry.Ends ⟨true, qualifier, name, args, current⟩ outcome entries
      ↔ registry.Ends ⟨true, none, name, args, current⟩ outcome entries := by
  cases h : registry.refusal? name args.length with
  | none =>
    obtain ⟨extension, hext, haccepts⟩ := refusal?_eq_none_iff.mp h
    rw [ends_of_accepts_iff qualifier hext haccepts, ends_of_accepts_iff none hext haccepts]
  | some error => rw [ends_of_refusal?_iff qualifier h, ends_of_refusal?_iff none h]

end Call

namespace Path

variable {registry : Registry N} {name last : String} {count : Nat} {before : List String}

theorem of_isChain {before after : List String} : ∀ {name : String} {rest : List String},
    (name :: rest).IsChain registry.Delegates → name :: rest = before ++ last :: after →
      (∀ earlier ∈ before, registry.refusal? earlier count = none) →
        registry.Path count name before last := by
  induction before with
  | nil =>
    rintro name rest - hsplit -
    injection hsplit with hname
    exact hname ▸ .here name
  | cons first before ih =>
    rintro name (_ | ⟨next, rest⟩) hchain hsplit haccepts
    · simp at hsplit
    · injection hsplit with hname hsplit
      subst hname
      rw [List.isChain_cons_cons] at hchain
      exact .step (haccepts name List.mem_cons_self) hchain.1
        (ih hchain.2 hsplit fun earlier hmem => haccepts earlier (List.mem_cons_of_mem name hmem))

section Ends

variable {args : List (Argument N)} {current : Option N} {extension : Extension N}
  {outcome : Outcome N} {entries : List (Entry N)}

/-- What is at the end of a path decides how the call ends, after the bodies on the path. -/
theorem ends_iff (h : registry.Path args.length name before last) (qualifier : Option String) :
    registry.Ends ⟨true, qualifier, name, args, current⟩ outcome entries
      ↔ ∃ later, entries = before.map (⟨·, args, current⟩) ++ later
        ∧ registry.Ends ⟨true, none, last, args, current⟩ outcome later := by
  induction h generalizing qualifier entries with
  | here name => simp [ends_qualifier_iff qualifier]
  | step haccepts hdelegates _ ih =>
    obtain ⟨extension, hext, haccepts⟩ := refusal?_eq_none_iff.mp haccepts
    simp [Registry.ends_of_accepts_iff qualifier hext haccepts,
      finishes_delegate_iff (hdelegates extension hext), ih]

theorem invoke_eq (h : registry.Path args.length name before last) (qualifier : Option String) :
    registry.invoke qualifier name args current = registry.invoke none last args current := by
  refine Option.ext fun outcome => ?_
  simp [invoke, call_eq_some_iff, h.ends_iff qualifier]

theorem ends_of_refusal?_iff {error : CallError} (h : registry.Path args.length name before last)
    (hrefused : registry.refusal? last args.length = some error) (qualifier : Option String) :
    registry.Ends ⟨true, qualifier, name, args, current⟩ outcome entries
      ↔ outcome = .error error ∧ entries = before.map (⟨·, args, current⟩) := by
  simp [h.ends_iff qualifier, Registry.ends_of_refusal?_iff none hrefused, and_comm]

theorem invoke_of_refusal? {error : CallError} (h : registry.Path args.length name before last)
    (hrefused : registry.refusal? last args.length = some error) (qualifier : Option String) :
    registry.invoke qualifier name args current = some (.error error) :=
  ((h.ends_of_refusal?_iff hrefused qualifier).mpr ⟨rfl, rfl⟩).call_eq

theorem ends_of_accepts_iff (h : registry.Path args.length name before last)
    (hext : registry.extensions[last]? = some extension)
    (haccepts : extension.accepts args.length = true) (qualifier : Option String) :
    registry.Ends ⟨true, qualifier, name, args, current⟩ outcome entries
      ↔ ∃ later, entries = (before ++ [last]).map (⟨·, args, current⟩) ++ later
        ∧ registry.Finishes (registry.program extension args current) outcome later := by
  simp [h.ends_iff qualifier, Registry.ends_of_accepts_iff none hext haccepts]

theorem invoke_of_accepts (h : registry.Path args.length name before last)
    (hext : registry.extensions[last]? = some extension)
    (haccepts : extension.accepts args.length = true) (qualifier : Option String) :
    registry.invoke qualifier name args current = registry.callDirect extension args current :=
  (h.invoke_eq qualifier).trans (call_of_target (target_of_accepts none current hext haccepts))

/-- A call that is handed on and comes back to its name never ends. -/
theorem invoke_of_circle (h : registry.Path args.length name before name) (hne : before ≠ [])
    (qualifier : Option String) : registry.invoke qualifier name args current = none := by
  have hfirst : registry.LeadsTo args current name ⟨true, qualifier, name, args, current⟩ :=
    ⟨qualifier, name, before, rfl, hne, h⟩
  refine call_eq_none (fun request hrequest => ?_) hfirst
  obtain ⟨qualifier, passed, _, rfl, hbetween, hpath⟩ := hrequest
  cases hpath with
  | here => exact absurd rfl hbetween
  | @step _ next _ rest haccepts hdelegates hpath =>
    obtain ⟨extension, hext, haccepts⟩ := refusal?_eq_none_iff.mp haccepts
    refine ⟨extension, _, _, target_of_accepts qualifier current hext haccepts,
      congrFun (hdelegates extension hext) _, none, next, ?_⟩
    -- the path that arrives starts over
    by_cases hrest : rest = []
    · subst hrest
      cases hpath
      exact ⟨before, rfl, hne, h⟩
    · exact ⟨rest, rfl, hrest, hpath⟩

end Ends

end Path

variable [Node N]

theorem delegates_ofSteps {steps : List (SetupStep N)} {name next : String}
    {extension : Extension N} (hlast : lastNamed? name steps = some extension)
    (hbody : extension.body = .delegate next) : (ofSteps steps).Delegates name next := by
  intro found hfound
  rw [getElem?_ofSteps, hlast] at hfound
  rw [← Option.some.inj hfound, hbody]

/-- Names of which each hands its calls on to the next come to the error of the first that is
refused, and no body starts but those before it, or else to what the body of the last comes to when
it is run with the same arguments and the same current node. With one name this is the law of
calls: an unknown name comes before a wrong number of arguments, and that before the body. -/
theorem invoke_delegated (steps : List (SetupStep N)) (qualifier : Option String) (name : String)
    (args : List (Argument N)) (current : Option N) :
    (∀ rest, (name :: rest).IsChain (ofSteps steps).Delegates →
        (∀ before failing after error, name :: rest = before ++ failing :: after →
          (∀ earlier ∈ before, (ofSteps steps).refusal? earlier args.length = none) →
          (ofSteps steps).refusal? failing args.length = some error →
            (ofSteps steps).invoke qualifier name args current = some (.error error)
              ∧ ∀ outcome entries,
                (ofSteps steps).Ends ⟨true, qualifier, name, args, current⟩ outcome entries
                  ↔ outcome = .error error ∧ entries = before.map (⟨·, args, current⟩))
        ∧ (∀ before last extension, name :: rest = before ++ [last] →
          (∀ link ∈ name :: rest, (ofSteps steps).refusal? link args.length = none) →
          (ofSteps steps).resolve none last (args.map Argument.resultType) = .ok extension →
            (ofSteps steps).invoke qualifier name args current
                = (ofSteps steps).callDirect extension args current
              ∧ ∀ outcome entries,
                (ofSteps steps).Ends ⟨true, qualifier, name, args, current⟩ outcome entries
                  ↔ ∃ later, entries = (name :: rest).map (⟨·, args, current⟩) ++ later
                    ∧ (ofSteps steps).Finishes
                      ((ofSteps steps).program extension args current) outcome later))
      ∧ (ofSteps steps).invoke qualifier name args current
        = (ofSteps steps).invoke none name args current
      ∧ (∀ hints error, (ofSteps steps).resolve qualifier name hints = .error error →
        error = .functionNotFound name
          ∧ (ofSteps steps).invoke qualifier name args current = some (.error error)
          ∧ ∀ outcome entries,
            (ofSteps steps).Ends ⟨true, qualifier, name, args, current⟩ outcome entries
              ↔ outcome = .error error ∧ entries = [])
      ∧ ∀ hints extension, (ofSteps steps).resolve qualifier name hints = .ok extension →
        extension.name = name
          ∧ (¬ (extension.minArgs ≤ args.length
              ∧ ∀ max, extension.maxArgs = some max → args.length ≤ max) →
            (ofSteps steps).invoke qualifier name args current
                = some (.error (.wrongArity name args.length extension.minArgs extension.maxArgs))
              ∧ ∀ outcome entries,
                (ofSteps steps).Ends ⟨true, qualifier, name, args, current⟩ outcome entries
                  ↔ outcome = .error (.wrongArity name args.length extension.minArgs
                      extension.maxArgs) ∧ entries = [])
          ∧ (extension.minArgs ≤ args.length →
            (∀ max, extension.maxArgs = some max → args.length ≤ max) →
              (ofSteps steps).invoke qualifier name args current
                = (ofSteps steps).callDirect extension args current) := by
  refine ⟨fun rest hchain => ⟨fun before failing after error hsplit hbefore hrefused => ?_,
    fun before last extension hsplit haccepts hok => ?_⟩,
    (Path.here name).invoke_eq qualifier, fun hints error herror => ?_,
    fun hints extension hok => ?_⟩
  · have hpath := Path.of_isChain hchain hsplit hbefore
    exact ⟨hpath.invoke_of_refusal? hrefused qualifier,
      fun outcome entries => hpath.ends_of_refusal?_iff hrefused qualifier⟩
  · have hext := resolve_eq_ok_iff.mp hok
    rw [hsplit] at haccepts ⊢
    have hpath := Path.of_isChain hchain hsplit fun earlier hmem =>
      haccepts earlier (List.mem_append_left _ hmem)
    have hlast := accepts_of_refusal? hext (haccepts last List.mem_concat_self)
    exact ⟨hpath.invoke_of_accepts hext hlast qualifier,
      fun outcome entries => hpath.ends_of_accepts_iff hext hlast qualifier⟩
  · obtain ⟨rfl, hnone⟩ := resolve_eq_error_iff.mp herror
    have hrefused : (ofSteps steps).refusal? name args.length = some (.functionNotFound name) := by
      rw [refusal?, hnone]
    exact ⟨rfl, (Path.here name).invoke_of_refusal? hrefused qualifier,
      fun outcome entries => ends_of_refusal?_iff qualifier hrefused⟩
  · have hext := resolve_eq_ok_iff.mp hok
    have hname := name_of_lastNamed? ((getElem?_ofSteps name steps).symm.trans hext)
    refine ⟨hname, fun hbounds => ?_, fun hmin hmax => ?_⟩
    · rw [← Signature.accepts_iff] at hbounds
      have hrefused : (ofSteps steps).refusal? name args.length
          = some (.wrongArity name args.length extension.minArgs extension.maxArgs) := by
        rw [refusal?, hext, ← hname]
        simp [hbounds]
      exact ⟨(Path.here name).invoke_of_refusal? hrefused qualifier,
        fun outcome entries => ends_of_refusal?_iff qualifier hrefused⟩
    · exact (Path.here name).invoke_of_accepts hext (Signature.accepts_iff.mpr ⟨hmin, hmax⟩)
        qualifier

/-- The call of a name that hands on to another and that one to a third answers as the third does;
the second takes one argument at most, so with two it is refused, and the third has not run. -/
theorem invoke_delegated_twice :
    ∃ steps : List (SetupStep TextNode),
      (ofSteps steps).invoke (some "p") "first" [.scalar (.boolean true)] (some ⟨"here"⟩)
          = some (.ok [.atomic (.boolean true), .node ⟨"here"⟩])
        ∧ (ofSteps steps).invoke none "first" [.scalar (.boolean true), .nodes .empty] none
          = some (.error (.wrongArity "second" 2 0 (some 1)))
        ∧ (∀ outcome entries, (ofSteps steps).Ends
          ⟨true, none, "first", [.scalar (.boolean true), .nodes .empty], none⟩ outcome entries →
            entries = [⟨"first", [.scalar (.boolean true), .nodes .empty], none⟩])
        ∧ (ofSteps steps).invoke none "lost" [] none
          = some (.error (.functionNotFound "nowhere")) := by
  let third : Extension TextNode := ⟨⟨"third", 0, none, .any, none⟩, fun call =>
    .done (.ok (flatten call.args ++ call.current.toList.map .node))⟩
  let steps : List (SetupStep TextNode) := [
    .extension ⟨⟨"first", 0, none, .any, none⟩, .delegate "second"⟩,
    .extension ⟨⟨"second", 0, some 1, .any, none⟩, .delegate "third"⟩, .extension third,
    .extension ⟨⟨"lost", 0, none, .any, none⟩, .delegate "nowhere"⟩]
  have hchain : ["first", "second", "third"].IsChain (ofSteps steps).Delegates :=
    .cons_cons (delegates_ofSteps rfl rfl) (.cons_cons (delegates_ofSteps rfl rfl) (.singleton _))
  have hlost : ["lost", "nowhere"].IsChain (ofSteps steps).Delegates :=
    .cons_cons (delegates_ofSteps rfl rfl) (.singleton _)
  refine ⟨steps, ?_, ?_⟩
  · obtain ⟨hlaw, -⟩ := invoke_delegated steps (some "p") "first" [.scalar (.boolean true)]
      (some ⟨"here"⟩)
    obtain ⟨hinvoke, -⟩ := (hlaw _ hchain).2 ["first", "second"] "third" third rfl
      (by decide +kernel) (resolve_eq_ok_iff.mpr (getElem?_ofSteps "third" steps))
    exact hinvoke
  · obtain ⟨hlaw, -⟩ := invoke_delegated steps none "first"
      [.scalar (.boolean true), .nodes .empty] none
    obtain ⟨hinvoke, hends⟩ := (hlaw _ hchain).1 ["first"] "second" ["third"]
      (.wrongArity "second" 2 0 (some 1)) rfl (by decide +kernel) (by decide +kernel)
    refine ⟨hinvoke, fun outcome entries h => ((hends outcome entries).mp h).2, ?_⟩
    obtain ⟨hlaw, -⟩ := invoke_delegated steps none "lost" [] none
    exact ((hlaw _ hlost).1 ["lost"] "nowhere" [] _ rfl (by decide +kernel) (by decide +kernel)).1

end PathFunctions.Registry
