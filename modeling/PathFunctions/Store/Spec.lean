import PathFunctions.Store.Build

/-!
# Building trees

A `NodeSpec` says how to build a node together with what it lists. Attributes are built before
children and everything listed before the node that lists it, each from left to right. In place of
a new node a spec may name one that is held already, which is then listed as it is.
-/

namespace PathFunctions

inductive NodeSpec
  | held (slot : Nat)
  | text (value : String)
  | comment (value : String)
  | attribute (name value : String)
  | element (name : String) (uris : List String) (attributes children : List NodeSpec)
  | document (uris : List String) (attributes children : List NodeSpec)

variable (held : Nat → Option Nat)

mutual

/-- Builds the node of a spec, with `held` telling which nodes are held; of several URIs the last
stays. Fails if a slot is empty. -/
def NodeSpec.build : NodeSpec → Store → Option (Nat × Store)
  | .held slot, s => (held slot).map fun i => (i, s)
  | .text value, s => some (s.add (.text value))
  | .comment value, s => some (s.add (.comment value))
  | .attribute name value, s => some (s.add (.attribute name value))
  | .element name uris attributes children, s => do
    let (attributes, s) ← buildAll attributes s
    let (children, s) ← buildAll children s
    return s.add (.element name uris.getLast? attributes children)
  | .document uris attributes children, s => do
    let (attributes, s) ← buildAll attributes s
    let (children, s) ← buildAll children s
    return s.add (.document uris.getLast? attributes children)

def NodeSpec.buildAll : List NodeSpec → Store → Option (List Nat × Store)
  | [], s => some ([], s)
  | spec :: specs, s => do
    let (i, s) ← spec.build s
    let (is, s) ← buildAll specs s
    return (i :: is, s)

end

namespace NodeSpec

/-- Builds what a container lists and then the container. -/
def buildAround (content : List Nat → List Nat → Content) (attributes children : List NodeSpec)
    (s : Store) : Option (Nat × Store) := do
  let (attributes, s) ← buildAll held attributes s
  let (children, s) ← buildAll held children s
  return s.add (content attributes children)

variable {held} {name : String} {uris : List String} {attributes children specs : List NodeSpec}
  {spec : NodeSpec} {s t : Store} {i : Nat} {is : List Nat}

theorem build_element : (element name uris attributes children).build held s
    = buildAround held (.element name uris.getLast?) attributes children s := by
  rw [build]
  rfl

theorem build_document : (document uris attributes children).build held s
    = buildAround held (.document uris.getLast?) attributes children s := by
  rw [build]
  rfl

theorem buildAround_iff {content : List Nat → List Nat → Content} :
    buildAround held content attributes children s = some (i, t)
      ↔ ∃ as s₁ cs s₂, buildAll held attributes s = some (as, s₁)
        ∧ buildAll held children s₁ = some (cs, s₂) ∧ s₂.add (content as cs) = (i, t) := by
  simp only [buildAround, Option.bind_eq_bind, Option.bind_eq_some_iff, Prod.exists,
    Option.pure_def, Option.some.injEq, ← exists_and_left]

theorem buildAll_cons_iff : buildAll held (spec :: specs) s = some (is, t)
    ↔ ∃ i s₁ js, spec.build held s = some (i, s₁) ∧ buildAll held specs s₁ = some (js, t)
      ∧ is = i :: js := by
  simp only [buildAll, Option.bind_eq_bind, Option.bind_eq_some_iff, Prod.exists, Option.pure_def,
    Option.some.injEq, Prod.mk.injEq]
  constructor
  · rintro ⟨i, s₁, hi, js, s₂, hjs, rfl, rfl⟩
    exact ⟨i, s₁, js, hi, hjs, rfl⟩
  · rintro ⟨i, s₁, js, hi, hjs, rfl⟩
    exact ⟨i, s₁, hi, js, t, hjs, rfl, rfl⟩

end NodeSpec

/-- Puts a node into `depth` new elements, each around the one before. -/
def Store.wrap (s : Store) (name : String) : Nat → Nat → Nat × Store
  | 0, i => (i, s)
  | depth + 1, i =>
    let (outer, s) := s.add (.element name none [] [i])
    s.wrap name depth outer

end PathFunctions
