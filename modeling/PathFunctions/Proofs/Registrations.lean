import Mathlib.Data.List.Dedup
import Mathlib.Data.List.Perm.Basic
import Mathlib.Data.String.Basic
import PathFunctions.Node.TextNode
import PathFunctions.Proofs.ByteOrder
import PathFunctions.Registry.Invoke
import PathFunctions.Registry.Setup

/-!
# What the steps of a setup come to

Each step puts at most one function under its own name and leaves the rest as it was, so a registry
holds under each name the function registered last (`getElem?_ofSteps`), and the last word on white
space stands (`whitespace_ofSteps`). Registries that agree on both answer alike whatever they are
asked (`alike_of_agree`), so of the order of the steps nothing else shows.
-/

namespace PathFunctions

variable {N : Type}

namespace Registry

theorem getElem?_register (registry : Registry N) (extension : Extension N) (name : String) :
    (registry.register extension).extensions[name]?
      = ((some extension).filter (·.name = name)).or registry.extensions[name]? := by
  by_cases h : extension.name = name
  · rw [Option.filter_some_pos (by simpa using h)]
    simp [register, h]
  · rw [Option.filter_some_neg (by simpa using h)]
    simp [register, Std.TreeMap.getElem?_insert, h]

theorem resolve_eq_ok_iff {registry : Registry N} {qualifier : Option String} {name : String}
    {hints : List ResultType} {extension : Extension N} :
    registry.resolve qualifier name hints = .ok extension
      ↔ registry.extensions[name]? = some extension := by
  rw [resolve]
  cases registry.extensions[name]? <;> simp

theorem resolve_eq_error_iff {registry : Registry N} {qualifier : Option String} {name : String}
    {hints : List ResultType} {error : CallError} :
    registry.resolve qualifier name hints = .error error
      ↔ error = .functionNotFound name ∧ registry.extensions[name]? = none := by
  rw [resolve]
  cases registry.extensions[name]? <;> simp [eq_comm]

theorem mem_names_iff {registry : Registry N} {name : String} :
    name ∈ registry.names ↔ registry.extensions[name]? ≠ none := by
  rw [names, Std.TreeMap.mem_keys, Std.TreeMap.mem_iff_isSome_getElem?, Option.isSome_iff_ne_none]

theorem names_pairwise_lt (registry : Registry N) : registry.names.Pairwise (· < ·) :=
  Std.TreeMap.ordered_keys.imp fun h => compare_lt_iff_lt.mp h

theorem names_nodup (registry : Registry N) : registry.names.Nodup :=
  Std.TreeMap.nodup_keys

theorem length_names (registry : Registry N) : registry.names.length = registry.size :=
  Std.TreeMap.length_keys

/-- Sorting the names by their bytes, however they were collected, lists them as `names` does. -/
theorem eq_names_of_bytes_sorted {registry : Registry N} {listed : List String}
    (hnodup : listed.Nodup) (hmem : ∀ name, name ∈ listed ↔ name ∈ registry.names)
    (hsorted : listed.Pairwise fun name other => Text.utf8Bytes name ≤ Text.utf8Bytes other) :
    listed = registry.names := by
  have hperm : listed.Perm registry.names :=
    (List.perm_ext_iff_of_nodup hnodup registry.names_nodup).mpr hmem
  have hnames : registry.names.Pairwise
      fun name other => Text.utf8Bytes name ≤ Text.utf8Bytes other :=
    registry.names_pairwise_lt.imp fun h => List.le_of_lt (Text.utf8Bytes_lt h)
  refine hperm.eq_of_pairwise (fun name other _ _ hle hge => ?_) hsorted hnames
  exact String.le_antisymm (Text.utf8Bytes_le_iff.mp hle) (Text.utf8Bytes_le_iff.mp hge)

/-- Two registries that answer alike, whatever they are asked. -/
structure Alike (registry other : Registry N) : Prop where
  resolve : registry.resolve = other.resolve
  resolveVariable : registry.resolveVariable = other.resolveVariable
  names : registry.names = other.names
  size : registry.size = other.size
  isEmpty : registry.isEmpty = other.isEmpty
  whitespace : registry.whitespace = other.whitespace
  preservesWhitespace : registry.preservesWhitespace = other.preservesWhitespace
  compareDocuments : registry.compareDocuments = other.compareDocuments
  describe : registry.describe = other.describe
  invoke : registry.invoke = other.invoke
  callDirect : registry.callDirect = other.callDirect

section Agreement

variable {registry other : Registry N}

theorem resolve_congr
    (hext : ∀ name : String, registry.extensions[name]? = other.extensions[name]?) :
    registry.resolve = other.resolve := by
  funext qualifier name hints
  rw [resolve, resolve, hext]

theorem directory_congr (hext : registry.extensions.Equiv other.extensions)
    (hspace : registry.whitespace = other.whitespace) : registry.directory = other.directory := by
  rw [directory, directory, hext.values_eq, hspace]

theorem call_of_agree (hresolve : registry.resolve = other.resolve)
    (hdir : registry.directory = other.directory) :
    ∀ request outcome, registry.call request = some outcome →
      other.call request = some outcome := by
  have htarget : registry.target = other.target := by
    funext request
    rw [target, target, hresolve]
  refine call_induction (fun request error herror => ?_)
    fun invocation ih request extension outcome hok hrun => ?_
  · exact call_of_target_error (htarget ▸ herror)
  · rw [program, hdir] at hrun
    rw [call_of_target (htarget ▸ hok)]
    exact Invocation.run_mono ih _ hrun

theorem call_congr (hresolve : registry.resolve = other.resolve)
    (hdir : registry.directory = other.directory) : registry.call = other.call := by
  funext request
  exact Option.ext fun outcome => ⟨call_of_agree hresolve hdir request outcome,
    call_of_agree hresolve.symm hdir.symm request outcome⟩

theorem alike_of_agree
    (hext : ∀ name : String, registry.extensions[name]? = other.extensions[name]?)
    (hspace : registry.whitespace = other.whitespace) : registry.Alike other := by
  have hequiv := Std.TreeMap.Equiv.of_forall_constGet?_eq hext
  have hnames : registry.names = other.names := hequiv.keys_eq
  have hsize : registry.size = other.size := hequiv.size_eq
  have hresolve := resolve_congr hext
  have hdir := directory_congr hequiv hspace
  have hcall := call_congr hresolve hdir
  exact {
    resolve := hresolve
    resolveVariable := rfl
    names := hnames
    size := hsize
    isEmpty := hequiv.isEmpty_eq
    whitespace := hspace
    preservesWhitespace := funext fun _ => hspace
    compareDocuments := rfl
    describe := by rw [describe, describe, hnames, hspace]
    invoke := by
      funext qualifier name args current
      rw [invoke, invoke, hcall]
    callDirect := by
      funext extension args current
      rw [callDirect, callDirect, program, program, hcall, hdir] }

end Agreement

end Registry

variable [Node N]

/-- The function a step registers. -/
def SetupStep.extension? : SetupStep N → Option (Extension N)
  | .extension function => some function
  | .format => some .format
  | .whitespace _ => none

/-- What a step says of white space. -/
def SetupStep.whitespace? : SetupStep N → Option Bool
  | .extension _ => none
  | .format => none
  | .whitespace significant => some significant

namespace Registry

/-- The functions some steps register, in their order. -/
def registrations (steps : List (SetupStep N)) : List (Extension N) :=
  steps.filterMap SetupStep.extension?

def lastNamed? (name : String) (steps : List (SetupStep N)) : Option (Extension N) :=
  ((registrations steps).filter (·.name = name)).getLast?

def lastWhitespace? (steps : List (SetupStep N)) : Option Bool :=
  (steps.filterMap SetupStep.whitespace?).getLast?

theorem getElem?_apply (registry : Registry N) (step : SetupStep N) (name : String) :
    (registry.apply step).extensions[name]?
      = (step.extension?.filter (·.name = name)).or registry.extensions[name]? := by
  rcases step with extension | _ | significant
  · exact getElem?_register registry extension name
  · exact getElem?_register registry .format name
  · rfl

theorem lastNamed?_cons (name : String) (step : SetupStep N) (steps : List (SetupStep N)) :
    lastNamed? name (step :: steps)
      = (lastNamed? name steps).or (step.extension?.filter (·.name = name)) := by
  rw [lastNamed?, lastNamed?, registrations, registrations, List.filterMap_cons]
  rcases step.extension? with _ | extension
  · rw [Option.filter_none, Option.or_none]
  · by_cases h : extension.name = name
    · rw [List.filter_cons_of_pos (by simpa using h), List.getLast?_cons,
        Option.filter_some_pos (by simpa using h)]
      cases List.getLast? _ <;> rfl
    · rw [List.filter_cons_of_neg (by simpa using h), Option.filter_some_neg (by simpa using h),
        Option.or_none]

/-- From any registry on: the function registered last under a name, or the one there before. -/
theorem getElem?_foldl_apply (name : String) : ∀ (steps : List (SetupStep N))
    (registry : Registry N), (steps.foldl apply registry).extensions[name]?
      = (lastNamed? name steps).or registry.extensions[name]?
  | [], _ => rfl
  | step :: steps, registry => by
    rw [List.foldl_cons, getElem?_foldl_apply name steps, getElem?_apply, lastNamed?_cons,
      Option.or_assoc]

theorem getElem?_ofSteps (name : String) (steps : List (SetupStep N)) :
    (ofSteps steps).extensions[name]? = lastNamed? name steps := by
  rw [ofSteps, getElem?_foldl_apply]
  simp [empty]

theorem whitespace_foldl_apply : ∀ (steps : List (SetupStep N)) (registry : Registry N),
    (steps.foldl apply registry).whitespace = (lastWhitespace? steps).getD registry.whitespace
  | [], _ => rfl
  | step :: steps, registry => by
    rw [List.foldl_cons, whitespace_foldl_apply steps, lastWhitespace?, lastWhitespace?,
      List.filterMap_cons]
    rcases step with extension | _ | significant
    · rfl
    · rfl
    · simp [SetupStep.whitespace?, apply, List.getLast?_cons]

theorem whitespace_ofSteps (steps : List (SetupStep N)) :
    (ofSteps steps).whitespace = (lastWhitespace? steps).getD true := whitespace_foldl_apply steps _

section Last

variable {steps : List (SetupStep N)} {name : String}

theorem lastNamed?_eq_some_iff {extension : Extension N} :
    lastNamed? name steps = some extension
      ↔ ∃ before after, registrations steps = before ++ extension :: after
          ∧ extension.name = name ∧ ∀ later ∈ after, later.name ≠ name := by
  rw [lastNamed?, List.getLast?_filter, List.find?_eq_some_iff_append]
  constructor
  · rintro ⟨hname, after, before, hsplit, hafter⟩
    refine ⟨before.reverse, after.reverse, ?_, by simpa using hname, by simpa using hafter⟩
    rw [← List.reverse_reverse (registrations steps), hsplit]
    simp
  · rintro ⟨before, after, hsplit, hname, hafter⟩
    exact ⟨by simpa using hname, after.reverse, before.reverse, by simp [hsplit],
      by simpa using hafter⟩

theorem lastNamed?_eq_none_iff :
    lastNamed? name steps = none ↔ ∀ extension ∈ registrations steps, extension.name ≠ name := by
  simp [lastNamed?, List.find?_eq_none]

theorem name_of_lastNamed? {extension : Extension N}
    (h : lastNamed? name steps = some extension) : extension.name = name := by
  obtain ⟨before, after, -, hname, -⟩ := lastNamed?_eq_some_iff.mp h
  exact hname

theorem mem_names_ofSteps :
    name ∈ (ofSteps steps).names ↔ ∃ extension ∈ registrations steps, extension.name = name := by
  rw [mem_names_iff, getElem?_ofSteps, ne_eq, lastNamed?_eq_none_iff]
  simp

theorem size_ofSteps :
    (ofSteps steps).size = ((registrations steps).map (·.name)).dedup.length := by
  rw [← length_names]
  refine List.Perm.length_eq ?_
  refine (List.perm_ext_iff_of_nodup (names_nodup _) (List.nodup_dedup _)).mpr fun name => ?_
  rw [mem_names_ofSteps, List.mem_dedup, List.mem_map]

theorem isEmpty_ofSteps : (ofSteps steps).isEmpty = true ↔ registrations steps = [] := by
  rw [isEmpty, Std.TreeMap.isEmpty_iff_forall_not_mem, List.eq_nil_iff_forall_not_mem]
  simp only [← Std.TreeMap.mem_keys]
  have hmem := @mem_names_ofSteps N _ steps
  rw [names] at hmem
  simp [hmem]

theorem alike_ofSteps {others : List (SetupStep N)}
    (hlast : ∀ name, lastNamed? name steps = lastNamed? name others)
    (hspace : (lastWhitespace? steps).getD true = (lastWhitespace? others).getD true) :
    (ofSteps steps).Alike (ofSteps others) := by
  refine alike_of_agree (fun name => ?_) ?_
  · rw [getElem?_ofSteps, getElem?_ofSteps, hlast]
  · rw [whitespace_ofSteps, whitespace_ofSteps, hspace]

/-- Functions of different names may be registered in any order. -/
theorem lastNamed?_of_perm {others : List (SetupStep N)}
    (hperm : (registrations steps).Perm (registrations others))
    (hdistinct : ((registrations steps).map (·.name)).Nodup) (name : String) :
    lastNamed? name steps = lastNamed? name others := by
  have hpairs := List.pairwise_map.mp hdistinct
  have hnone : ∀ {functions : List (Extension N)},
      functions.Pairwise (fun first second => first.name ≠ second.name) →
        (functions.filter (·.name = name)).Pairwise fun _ _ => False := fun h => by
    refine List.pairwise_filter.mpr (h.imp fun hne hfirst hsecond => hne ?_)
    exact (of_decide_eq_true hfirst).trans (of_decide_eq_true hsecond).symm
  rw [lastNamed?, lastNamed?, (hperm.filter _).eq_of_pairwise (fun _ _ _ _ h _ => h.elim)
    (hnone hpairs) (hnone (hperm.pairwise hpairs fun h => h.symm))]

end Last

/-- A registry is what its steps say last. Every name finds the function registered last under it,
just as it was registered, and a name that nothing was registered under finds none. The names are
listed once each and in order, which is also the order of their bytes. Steps that say the same last
set up registries that answer alike; so do steps that register functions of different names in
another order. -/
theorem setup_last_wins (steps : List (SetupStep N)) :
    (∀ qualifier name hints extension,
        (ofSteps steps).resolve qualifier name hints = .ok extension
          ↔ ∃ before after, registrations steps = before ++ extension :: after
            ∧ extension.name = name ∧ ∀ later ∈ after, later.name ≠ name)
      ∧ (∀ qualifier name hints error,
        (ofSteps steps).resolve qualifier name hints = .error error
          ↔ error = .functionNotFound name
            ∧ ∀ extension ∈ registrations steps, extension.name ≠ name)
      ∧ (ofSteps steps).names.Pairwise (· < ·)
      ∧ (∀ name, name ∈ (ofSteps steps).names
          ↔ ∃ extension ∈ registrations steps, extension.name = name)
      ∧ (∀ listed : List String, listed.Nodup →
        (∀ name, name ∈ listed ↔ name ∈ (ofSteps steps).names) →
        (listed.Pairwise fun name other => Text.utf8Bytes name ≤ Text.utf8Bytes other) →
          listed = (ofSteps steps).names)
      ∧ (ofSteps steps).size = ((registrations steps).map (·.name)).dedup.length
      ∧ ((ofSteps steps).isEmpty = true ↔ registrations steps = [])
      ∧ (ofSteps steps).whitespace = (lastWhitespace? steps).getD true
      ∧ (∀ node, (ofSteps steps).preservesWhitespace node = (lastWhitespace? steps).getD true)
      ∧ ∀ others : List (SetupStep N),
        (lastWhitespace? steps).getD true = (lastWhitespace? others).getD true →
          ((∀ name, lastNamed? name steps = lastNamed? name others) →
            (ofSteps steps).Alike (ofSteps others))
          ∧ ((registrations steps).Perm (registrations others) →
            ((registrations steps).map (·.name)).Nodup →
              (ofSteps steps).Alike (ofSteps others)) := by
  have hspace := whitespace_ofSteps steps
  refine ⟨fun qualifier name hints extension => ?_, fun qualifier name hints error => ?_,
    names_pairwise_lt _, fun name => mem_names_ofSteps, fun listed => eq_names_of_bytes_sorted,
    size_ofSteps, isEmpty_ofSteps, hspace, fun node => hspace, fun others hothers => ⟨fun hlast =>
      alike_ofSteps hlast hothers, fun hperm hdistinct =>
        alike_ofSteps (lastNamed?_of_perm hperm hdistinct) hothers⟩⟩
  · rw [resolve_eq_ok_iff, getElem?_ofSteps, lastNamed?_eq_some_iff]
  · rw [resolve_eq_error_iff, getElem?_ofSteps, lastNamed?_eq_none_iff]

/-- The function with three bytes to its name was registered twice, and the one with four comes
after it though its name is the smaller one in UTF-16. Without the first registration, and with the
other two exchanged, the registry is the same to whoever asks. -/
theorem setup_last_wins_replaced :
    ∃ steps others reordered : List (SetupStep TextNode), ∃ extension : Extension TextNode,
      (registrations steps).map Extension.toSignature = [⟨"\uffff", 1, none, .any, none⟩,
          ⟨"😀", 0, none, .any, none⟩, ⟨"\uffff", 2, some 1, .string, some [.nodeSet]⟩]
        ∧ (ofSteps steps).resolve (some "p") "\uffff" [.number] = .ok extension
        ∧ extension.toSignature = ⟨"\uffff", 2, some 1, .string, some [.nodeSet]⟩
        ∧ (ofSteps steps).resolve none "\uFFFE" [] = .error (.functionNotFound "\uFFFE")
        ∧ ["\uffff", "😀"] = (ofSteps steps).names
        ∧ (ofSteps steps).Alike (ofSteps others) ∧ (ofSteps others).Alike (ofSteps reordered) := by
  let first : Extension TextNode := ⟨⟨"\uffff", 1, none, .any, none⟩, .nothing⟩
  let second : Extension TextNode := ⟨⟨"😀", 0, none, .any, none⟩, .echo⟩
  let third : Extension TextNode :=
    ⟨⟨"\uffff", 2, some 1, .string, some [.nodeSet]⟩, .currentNode⟩
  let others : List (SetupStep TextNode) :=
    [.extension second, .whitespace false, .extension third]
  let reordered : List (SetupStep TextNode) :=
    [.extension third, .extension second, .whitespace false]
  obtain ⟨hok, herror, -, hmem, hlisted, -, -, -, -, halike⟩ := setup_last_wins
    [.extension first, .whitespace true, .extension second, .extension third, .whitespace false]
  obtain ⟨-, -, -, -, -, -, -, -, -, hreordered⟩ := setup_last_wins others
  refine ⟨_, others, reordered, third, rfl, (hok _ _ _ _).mpr ⟨[first, second], [], rfl, rfl,
    nofun⟩, rfl, (herror _ _ _ _).mpr ⟨rfl, by decide⟩, hlisted _ (by decide) (fun name => ?_)
    (by decide), (halike others rfl).1 fun name => ?_,
    (hreordered reordered rfl).2 (.swap third second []) (by decide)⟩
  · rw [hmem]
    simp [registrations, SetupStep.extension?, first, second, third, or_comm, eq_comm]
  · by_cases h : "\uffff" = name
    · subst h
      rfl
    · rw [lastNamed?_cons, SetupStep.extension?, Option.filter_some_neg (by simpa using h)]
      exact Option.or_none

end Registry

end PathFunctions
