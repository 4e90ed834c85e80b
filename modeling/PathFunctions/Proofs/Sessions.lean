import PathFunctions.Proofs.Moves
import PathFunctions.Store.Session

/-!
# How sessions change their stores

With what its slots hold as what is held, a step of a session lets its store grow unless it empties
a slot, which releases nodes (`Session.grows_perform`, `Session.moves_perform`). So the stores of a
session that starts with nothing are sound (`Session.sound_of_run`). Specs are taken apart once, in
`NodeSpec.grows_build`; wrapping a node is building a spec of nested elements
(`Session.perform_wrap`).
-/

namespace PathFunctions

namespace Store

section Building

variable {s₀ s : Store} {held₀ held : Set Nat}

theorem Grows.leaf (h : Grows s₀ held₀ s held) {content : Content} {i : Nat} {t : Store}
    (hadd : s.add content = (i, t)) (hlisted : content.listed = []) :
    Grows s₀ held₀ t (insert i held) := by
  cases hadd
  exact h.add (by simp [hlisted])

/-- A container that is held keeps alive what it was built around. -/
theorem Grows.contain {content : Content}
    (h : Grows s₀ held₀ s ({i | i ∈ content.children} ∪ ({i | i ∈ content.attributes} ∪ held))) :
    Grows s₀ held₀ (s.add content).2 (insert s.size held) := by
  have hlisted : ∀ i ∈ content.listed,
      i ∈ {i | i ∈ content.children} ∪ ({i | i ∈ content.attributes} ∪ held) := by
    intro i hi
    rcases List.mem_append.mp hi with hi | hi
    · exact .inr (.inl hi)
    · exact .inl hi
  have hnew : ∀ i ∈ content.listed, Alive (s.add content).2 (insert s.size held) i := by
    intro i hi
    refine (Alive.held (Set.mem_insert _ _)).listed ?_
    rwa [content_add, if_pos rfl]
  refine (h.add hlisted).hold (fun i hi => .held ?_) fun i hi => ?_
  · exact hi.imp_right fun hi => .inr (.inr hi)
  · rcases hi with rfl | hi | hi | hi
    · exact .held (Set.mem_insert _ _)
    · exact hnew i (List.mem_append_right _ hi)
    · exact hnew i (List.mem_append_left _ hi)
    · exact .held (Set.mem_insert_of_mem _ hi)

theorem Grows.viewAll : ∀ (is : List Nat) {s : Store}, Grows s₀ held₀ s held →
    Grows s₀ held₀ (Store.viewAll is s).2 held
  | [], _, h => h
  | i :: is, _, h => (h.read i).viewAll is

end Building

section Paths

variable {s : Store} {held : Set Nat}

theorem mem_children {i : Nat} {found : Handle s}
    (h : found ∈ Node.children (Handle.mk i : Handle s)) : found.id ∈ (s.content i).listed := by
  obtain ⟨j, hj, rfl⟩ := List.mem_map.mp h
  exact List.mem_append_right _ hj

theorem mem_attributes {i : Nat} {found : Handle s}
    (h : found ∈ Node.attributes (Handle.mk i : Handle s)) : found.id ∈ (s.content i).listed := by
  obtain ⟨j, hj, rfl⟩ := List.mem_map.mp h
  exact List.mem_append_left _ hj

/-- A step leads to a listed node or to the parent. -/
theorem listed_or_parent {i : Nat} {found : Handle s} : ∀ {step : PathStep},
    found ∈ step.nodes (Handle.mk i : Handle s) →
      found.id ∈ (s.content i).listed ∨ s.parent i = some found.id
  | .child _, h => .inl (mem_children (List.mem_of_getElem? (Option.mem_toList.mp h)))
  | .children, h => .inl (mem_children h)
  | .attributes, h => .inl (mem_attributes h)
  | .parent, h => by
    obtain ⟨p, hp, rfl⟩ := Option.mem_map.mp (Option.mem_toList.mp h)
    exact .inr hp
  | .attribute _, h =>
    .inl (mem_attributes (List.mem_of_find?_eq_some (Option.mem_toList.mp h)))
  | .elements _, h => .inl (mem_children (List.mem_filter.mp h).1)

theorem Sound.alive_follow (h : Sound s held) : ∀ {path : List PathStep} {i : Nat},
    Alive s held i → ∀ found ∈ follow path (Handle.mk i : Handle s), Alive s held found.id
  | [], i, hi, found, hf => by
    rw [follow, List.mem_singleton] at hf
    rwa [hf]
  | step :: path, i, hi, found, hf => by
    rw [follow, List.mem_flatMap] at hf
    obtain ⟨next, hnext, hf⟩ := hf
    have halive : Alive s held next.id := by
      rcases listed_or_parent hnext with hn | hn
      · exact hi.listed hn
      · exact ((h.parent_iff _ _).mp hn).2
    exact h.alive_follow halive found hf

end Paths

end Store

namespace NodeSpec

open Store

variable {lookup : Nat → Option Nat}

section Building

variable {s₀ : Store} {held₀ : Set Nat}

mutual

/-- Building a spec holds on to the node of the spec and to nothing else that is new. -/
theorem grows_build : ∀ (spec : NodeSpec) {s t : Store} {kept : Set Nat} {i : Nat},
    Grows s₀ held₀ s kept → (∀ slot j, lookup slot = some j → j ∈ kept) →
      spec.build lookup s = some (i, t) → Grows s₀ held₀ t (insert i kept)
  | .held slot, s, t, kept, i, h, hslots, hb => by
    simp only [build, Option.map_eq_some_iff] at hb
    obtain ⟨j, hj, heq⟩ := hb
    cases heq
    rwa [Set.insert_eq_of_mem (hslots slot i hj)]
  | .text _, s, t, kept, i, h, hslots, hb | .comment _, s, t, kept, i, h, hslots, hb
  | .attribute _ _, s, t, kept, i, h, hslots, hb => h.leaf (Option.some.inj hb) rfl
  | .element _ _ attributes children, s, t, kept, i, h, hslots, hb
  | .document _ attributes children, s, t, kept, i, h, hslots, hb => by
    simp only [build_element, build_document] at hb
    obtain ⟨as, s₁, cs, s₂, has, hcs, hadd⟩ := buildAround_iff.mp hb
    have h₁ := grows_buildAll attributes h hslots has
    have h₂ := grows_buildAll children h₁ (fun slot j hj => .inr (hslots slot j hj)) hcs
    cases hadd
    exact h₂.contain

theorem grows_buildAll : ∀ (specs : List NodeSpec) {s t : Store} {kept : Set Nat}
    {is : List Nat}, Grows s₀ held₀ s kept → (∀ slot j, lookup slot = some j → j ∈ kept) →
      buildAll lookup specs s = some (is, t) → Grows s₀ held₀ t ({i | i ∈ is} ∪ kept)
  | [], s, t, kept, is, h, hslots, hb => by
    cases hb
    simpa using h
  | spec :: specs, s, t, kept, is, h, hslots, hb => by
    obtain ⟨i, s₁, js, hi, hjs, rfl⟩ := buildAll_cons_iff.mp hb
    have h₁ := grows_build spec h hslots hi
    have h₂ := grows_buildAll specs h₁ (fun slot j hj => .inr (hslots slot j hj)) hjs
    have hset : {j | j ∈ i :: js} ∪ kept = {j | j ∈ js} ∪ insert i kept := by
      ext j
      simp only [Set.mem_union, Set.mem_ofPred_eq, List.mem_cons, Set.mem_insert_iff]
      tauto
    rwa [hset]

end

end Building

section Wrapping

/-- The node of a slot in `depth` new elements, each around the one before. -/
def wrapped (slot : Nat) (name : String) : Nat → NodeSpec
  | 0 => .held slot
  | depth + 1 => .element name [] [] [wrapped slot name depth]

theorem wrap_succ (name : String) : ∀ (depth : Nat) (s : Store) (i : Nat),
    s.wrap name (depth + 1) i
      = (s.wrap name depth i).2.add (.element name none [] [(s.wrap name depth i).1])
  | 0, _, _ => rfl
  | depth + 1, s, i =>
    wrap_succ name depth (s.add (.element name none [] [i])).2 (s.add (.element name none [] [i])).1

theorem build_wrapped {slot i : Nat} (h : lookup slot = some i) (name : String) (s : Store) :
    ∀ depth : Nat, (wrapped slot name depth).build lookup s = some (s.wrap name depth i)
  | 0 => by
    rw [wrapped, build, h]
    rfl
  | depth + 1 => by
    simp [wrapped, build, buildAll, build_wrapped h name s depth, wrap_succ]

theorem build_wrapped_none {slot : Nat} (h : lookup slot = none) (name : String) (s : Store) :
    ∀ depth : Nat, (wrapped slot name depth).build lookup s = none
  | 0 => by
    rw [wrapped, build, h]
    rfl
  | depth + 1 => by
    simp [wrapped, build, buildAll, build_wrapped_none h name s depth]

end Wrapping

end NodeSpec

namespace Session

open Store

/-- The nodes that some slot holds. -/
def holds (session : Session) : Set Nat := {i | ∃ slot, session.held slot = some i}

def Alive (session : Session) (i : Nat) : Prop := Store.Alive session.store session.holds i

theorem perform_wrap (session : Session) (slot : Nat) (name : String) (depth : Nat) :
    session.perform (.wrap slot name depth)
      = session.perform (.build (.wrapped slot name depth)) := by
  simp only [perform]
  rcases h : session.held slot with _ | i
  · rw [NodeSpec.build_wrapped_none h]
    rfl
  · rw [NodeSpec.build_wrapped h]
    rfl

theorem mem_holds_iff {session : Session} {i : Nat} :
    i ∈ session.holds ↔ some i ∈ session.slots.toList := by
  simp only [holds, Set.mem_ofPred_eq, held, Option.join_eq_some_iff, Array.mem_toList_iff,
    Array.mem_iff_getElem?]

theorem holds_hold (session : Session) (built : Nat × Store) :
    (session.hold built).2.holds = insert built.1 session.holds := by
  ext i
  rw [Set.mem_insert_iff, mem_holds_iff, mem_holds_iff]
  simp [hold, or_comm]

theorem mem_holds_present {session : Session} {found kept : List Nat} {i : Nat} :
    i ∈ (session.present found kept).2.holds ↔ i ∈ kept ∨ i ∈ session.holds := by
  rw [mem_holds_iff, mem_holds_iff]
  simp [present, or_comm]

theorem holds_vacate (session : Session) (slot : Nat) :
    (session.vacate slot).holds
      = {i | i ∈ (session.slots.setIfInBounds slot none).toList.filterMap id} := by
  ext i
  rw [mem_holds_iff]
  simp [vacate]

theorem holds_of_vacate {session : Session} {slot i : Nat}
    (h : i ∈ (session.vacate slot).holds) : i ∈ session.holds := by
  obtain ⟨other, h⟩ := h
  refine ⟨other, ?_⟩
  simp only [held, vacate, Array.getElem?_setIfInBounds] at h
  split at h
  · split at h <;> cases h
  · exact h

section Steps

variable {session next : Session} {answer : Answer}

theorem grows_hold {built : Nat × Store}
    (h : Grows session.store session.holds built.2 (insert built.1 session.holds)) :
    Grows session.store session.holds (session.hold built).2.store
      (session.hold built).2.holds := by
  rw [holds_hold]
  exact h.read built.1

theorem grows_present (found : List Nat) {kept : List Nat}
    (hkept : ∀ i ∈ kept, session.Alive i) :
    Grows session.store session.holds (session.present found kept).2.store
      (session.present found kept).2.holds := by
  refine (Grows.start.hold (fun i hi => ?_) fun i hi => ?_).viewAll found
  · exact (mem_holds_present.mp hi).elim (hkept i) .held
  · exact .held (mem_holds_present.mpr (.inr hi))

theorem alive_of_find {slot : Nat} {path : List PathStep} {found : List Nat}
    (hs : Sound session.store session.holds) (hf : session.find slot path = some found) :
    ∀ i ∈ found, session.Alive i := by
  simp only [find, Option.map_eq_some_iff] at hf
  obtain ⟨start, hslot, rfl⟩ := hf
  intro i hi
  obtain ⟨node, hnode, rfl⟩ := List.mem_map.mp hi
  exact hs.alive_follow (.held ⟨slot, hslot⟩) node hnode

theorem grows_perform_build {spec : NodeSpec}
    (hp : session.perform (.build spec) = some (answer, next)) :
    Grows session.store session.holds next.store next.holds := by
  simp only [perform, Option.map_eq_some_iff] at hp
  obtain ⟨built, hb, heq⟩ := hp
  have hg := grows_hold (spec.grows_build .start (fun slot j hj => ⟨slot, hj⟩) hb)
  rwa [heq] at hg

theorem grows_perform (hs : Sound session.store session.holds) {step : Step}
    (hstep : ∀ slot, step ≠ .drop slot) (hp : session.perform step = some (answer, next)) :
    Grows session.store session.holds next.store next.holds := by
  cases step with
  | build spec => exact grows_perform_build hp
  | wrap slot name depth =>
    exact grows_perform_build (perform_wrap session slot name depth ▸ hp)
  | get slot path =>
    simp only [perform, Option.map_eq_some_iff] at hp
    obtain ⟨found, hf, heq⟩ := hp
    have hnone : ∀ i ∈ [], session.Alive i := fun i hi => absurd hi List.not_mem_nil
    have hg := grows_present found hnone
    rwa [heq] at hg
  | keep slot path =>
    simp only [perform, Option.map_eq_some_iff] at hp
    obtain ⟨found, hf, heq⟩ := hp
    have hg := grows_present found (alive_of_find hs hf)
    rwa [heq] at hg
  | drop slot => exact absurd rfl (hstep slot)
  | same slot other =>
    simp only [perform, Option.bind_eq_bind, Option.bind_eq_some_iff] at hp
    obtain ⟨i, -, j, -, heq⟩ := hp
    cases heq
    exact .start
  | describe slot =>
    simp only [perform, Option.map_eq_some_iff] at hp
    obtain ⟨i, -, heq⟩ := hp
    cases heq
    exact .start

theorem alive_of_vacate (session : Session) (slot : Nat) :
    ∀ i ∈ (session.slots.setIfInBounds slot none).toList.filterMap id, session.Alive i := by
  intro i hi
  have hmem : i ∈ (session.vacate slot).holds := by rwa [holds_vacate]
  exact .held (holds_of_vacate hmem)

theorem moves_vacate (session : Session) (slot : Nat) :
    Moves session.store session.holds (session.vacate slot).store
      (session.vacate slot).holds := by
  rw [holds_vacate]
  exact Moves.start.release (alive_of_vacate session slot)

theorem eq_vacate_of_perform {slot : Nat}
    (hp : session.perform (.drop slot) = some (answer, next)) : next = session.vacate slot := by
  simp only [perform] at hp
  split at hp <;> cases hp
  rfl

theorem moves_perform (hs : Sound session.store session.holds) {step : Step}
    (hp : session.perform step = some (answer, next)) :
    Moves session.store session.holds next.store next.holds := by
  by_cases hdrop : ∃ slot, step = .drop slot
  · obtain ⟨slot, rfl⟩ := hdrop
    rw [eq_vacate_of_perform hp]
    exact moves_vacate session slot
  · exact Moves.start.grow (grows_perform hs (fun slot h => hdrop ⟨slot, h⟩) hp)

end Steps

section Runs

theorem moves_run : ∀ {steps : List Step} {session final : Session} {answers : List Answer},
    Sound session.store session.holds → session.run steps = some (answers, final) →
      Moves session.store session.holds final.store final.holds
  | [], session, final, answers, hs, hr => by
    cases hr
    exact .start
  | step :: steps, session, final, answers, hs, hr => by
    obtain ⟨answer, next, rest, hp, hr, -⟩ := run_cons_iff.mp hr
    have hm := moves_perform hs hp
    exact hm.trans (moves_run (hm.sound hs) hr)

theorem holds_empty : Session.empty.holds = ∅ := by
  ext i
  rw [mem_holds_iff]
  simp [Session.empty]

variable {steps : List Step} {session : Session} {answers : List Answer}

theorem moves_of_run (h : Session.empty.run steps = some (answers, session)) :
    Moves .empty ∅ session.store session.holds := by
  have hm := moves_run (holds_empty ▸ sound_empty) h
  rwa [holds_empty] at hm

theorem sound_of_run (h : Session.empty.run steps = some (answers, session)) :
    Sound session.store session.holds := (moves_of_run h).sound sound_empty

end Runs

end Session

end PathFunctions
