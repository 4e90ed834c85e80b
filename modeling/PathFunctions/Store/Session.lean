import PathFunctions.Node.Path
import PathFunctions.Store.Release
import PathFunctions.Store.Spec
import PathFunctions.Store.View

/-!
# Sessions

A session holds nodes of a store in numbered slots. Slots are filled in order and may be emptied
again; what they hold, with all it lists, is what lives. Each step answers with what can be seen
of the nodes it concerns, and fails if it needs the node of a slot that has none.
-/

namespace PathFunctions

structure Session where
  store : Store
  slots : Array (Option Nat)

namespace Session

inductive Step
  | build (spec : NodeSpec)
  | wrap (slot : Nat) (name : String) (depth : Nat)
  | get (slot : Nat) (path : List PathStep)
  | keep (slot : Nat) (path : List PathStep)
  | drop (slot : Nat)
  | same (slot other : Nat)
  | describe (slot : Nat)

inductive Answer
  | node (view : NodeView)
  | nodes (views : List NodeView)
  | dropped
  | same (equal : Bool)
  | description (text : String)
  deriving DecidableEq

def empty : Session := ⟨.empty, #[]⟩

def held (session : Session) (slot : Nat) : Option Nat := session.slots[slot]?.join

/-- The nodes that a path finds from the node in a slot. -/
def find (session : Session) (slot : Nat) (path : List PathStep) : Option (List Nat) :=
  (session.held slot).map fun i =>
    (follow path (Store.Handle.mk i : Store.Handle session.store)).map Store.Handle.id

/-- Holds a node of the grown store in a new slot. -/
def hold (session : Session) (built : Nat × Store) : Answer × Session :=
  let (view, store) := built.2.view built.1
  (.node view, ⟨store, session.slots.push (some built.1)⟩)

/-- Shows some nodes and holds those of `kept` in new slots. -/
def present (session : Session) (found kept : List Nat) : Answer × Session :=
  let (views, store) := Store.viewAll found session.store
  (.nodes views, ⟨store, session.slots ++ (kept.map some).toArray⟩)

/-- Empties a slot, which may end the lives of nodes. -/
def vacate (session : Session) (slot : Nat) : Session :=
  let slots := session.slots.setIfInBounds slot none
  ⟨session.store.release (slots.toList.filterMap id), slots⟩

def perform (session : Session) : Step → Option (Answer × Session)
  | .build spec => (spec.build session.held session.store).map session.hold
  | .wrap slot name depth =>
    (session.held slot).map fun i => session.hold (session.store.wrap name depth i)
  | .get slot path => (session.find slot path).map fun found => session.present found []
  | .keep slot path => (session.find slot path).map fun found => session.present found found
  | .drop slot =>
    if slot < session.slots.size then some (.dropped, session.vacate slot) else none
  | .same slot other => do
    let i ← session.held slot
    let j ← session.held other
    return (.same (i = j), session)
  | .describe slot =>
    (session.held slot).map fun i =>
      (.description (session.store.content i).describe, session)

/-- The answers to some steps, one after another, and the session they end in. -/
def run (session : Session) : List Step → Option (List Answer × Session)
  | [] => some ([], session)
  | step :: steps => do
    let (answer, session) ← session.perform step
    let (answers, session) ← session.run steps
    return (answer :: answers, session)

theorem run_cons_iff {session final : Session} {step : Step} {steps : List Step}
    {answers : List Answer} : session.run (step :: steps) = some (answers, final)
      ↔ ∃ answer next rest, session.perform step = some (answer, next)
        ∧ next.run steps = some (rest, final) ∧ answers = answer :: rest := by
  simp only [run, Option.bind_eq_bind, Option.bind_eq_some_iff, Prod.exists, Option.pure_def,
    Option.some.injEq, Prod.mk.injEq]
  constructor
  · rintro ⟨answer, next, hp, rest, last, hr, rfl, rfl⟩
    exact ⟨answer, next, rest, hp, hr, rfl⟩
  · rintro ⟨answer, next, rest, hp, hr, rfl⟩
    exact ⟨answer, next, hp, rest, final, hr, rfl, rfl⟩

end Session

end PathFunctions
