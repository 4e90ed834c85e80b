import PathFunctions.Proofs.Histories

/-!
# Nodes stay what they are

A node that a spec builds is what the spec says, and still is when the session has gone on
(`Session.describes_of_perform`). With the text law of stores, this tells what every node of a run
is and stands for, whatever has been read in between (`Session.contents_and_texts_of_run`).
-/

namespace PathFunctions

namespace NodeSpec

open Store

section Specs

variable (lookup : Nat → Option Nat) (s : Store)

mutual

/-- Node `i` is what the spec says, with `lookup` telling which nodes were held. -/
def Describes : NodeSpec → Nat → Prop
  | .held slot, i => lookup slot = some i
  | .text value, i => s.content i = .text value
  | .comment value, i => s.content i = .comment value
  | .attribute name value, i => s.content i = .attribute name value
  | .element name uris attributes children, i => ∃ as cs,
    s.content i = .element name uris.getLast? as cs
      ∧ DescribeAll attributes as ∧ DescribeAll children cs
  | .document uris attributes children, i => ∃ as cs,
    s.content i = .document uris.getLast? as cs
      ∧ DescribeAll attributes as ∧ DescribeAll children cs

def DescribeAll : List NodeSpec → List Nat → Prop
  | [], is => is = []
  | spec :: specs, is => ∃ j js, is = j :: js ∧ Describes spec j ∧ DescribeAll specs js

end

end Specs

section Building

variable {lookup : Nat → Option Nat}

/-- Building keeps what the nodes there are before are made of. -/
theorem content_eq_of_buildAll {specs : List NodeSpec} {s t : Store} {is : List Nat}
    (h : buildAll lookup specs s = some (is, t)) :
    s.size ≤ t.size ∧ ∀ j < s.size, t.content j = s.content j := by
  have hg : Grows s {j | ∃ slot, lookup slot = some j} t ({j | j ∈ is} ∪ _) :=
    grows_buildAll specs .start (fun slot j hj => ⟨slot, hj⟩) h
  exact ⟨hg.size_le, fun j => hg.content_eq⟩

variable {u : Store}

/-- A store that keeps what is new after a node has been built keeps the node itself. -/
theorem content_eq_of_add {s t : Store} {i : Nat} {content : Content}
    (hadd : s.add content = (i, t)) (hu : ∀ j < t.size, u.content j = t.content j) :
    u.content i = content ∧ ∀ j < s.size, u.content j = s.content j := by
  have hi : i = s.size := (congrArg Prod.fst hadd).symm
  have ht : t = (s.add content).2 := (congrArg Prod.snd hadd).symm
  subst hi ht
  rw [size_add] at hu
  refine ⟨?_, fun j hj => ?_⟩
  · rw [hu s.size (Nat.lt_succ_self _), content_add, if_pos rfl]
  · rw [hu j (by omega), content_add, if_neg (Nat.ne_of_lt hj)]

mutual

/-- What a spec has built is as it says, in any store that keeps the nodes there are then. -/
theorem describes_of_build : ∀ (spec : NodeSpec) {s t : Store} {i : Nat},
    spec.build lookup s = some (i, t) → (∀ j < t.size, u.content j = t.content j) →
      Describes lookup u spec i
  | .held slot, s, t, i, hb, hu => by
    simp only [build, Option.map_eq_some_iff] at hb
    obtain ⟨j, hj, heq⟩ := hb
    cases heq
    exact hj
  | .text _, s, t, i, hb, hu | .comment _, s, t, i, hb, hu
  | .attribute _ _, s, t, i, hb, hu => (content_eq_of_add (Option.some.inj hb) hu).1
  | .element _ _ attributes children, s, t, i, hb, hu
  | .document _ attributes children, s, t, i, hb, hu => by
    simp only [build_element, build_document] at hb
    obtain ⟨as, s₁, cs, s₂, has, hcs, hadd⟩ := buildAround_iff.mp hb
    obtain ⟨hnew, h₂⟩ := content_eq_of_add hadd hu
    obtain ⟨hle, hkept⟩ := content_eq_of_buildAll hcs
    refine ⟨as, cs, hnew, describeAll_of_buildAll attributes has fun j hj => ?_,
      describeAll_of_buildAll children hcs h₂⟩
    -- The attributes were built first, so they are still there after the children.
    rw [h₂ j (by omega), hkept j hj]

theorem describeAll_of_buildAll : ∀ (specs : List NodeSpec) {s t : Store} {is : List Nat},
    buildAll lookup specs s = some (is, t) → (∀ j < t.size, u.content j = t.content j) →
      DescribeAll lookup u specs is
  | [], s, t, is, hb, hu => by
    cases hb
    rfl
  | spec :: specs, s, t, is, hb, hu => by
    obtain ⟨i, s₁, js, hi, hjs, rfl⟩ := buildAll_cons_iff.mp hb
    obtain ⟨hle, hkept⟩ := content_eq_of_buildAll hjs
    refine ⟨i, js, rfl, describes_of_build spec hi fun j hj => ?_,
      describeAll_of_buildAll specs hjs hu⟩
    rw [hu j (by omega), hkept j hj]

end

end Building

end NodeSpec

namespace Session

open Store

section Steps

variable {session next final : Session} {answer : Answer}

/-- A node built for a spec is in the new slot, and stays what the spec says. -/
theorem describes_of_perform (hs : Sound session.store session.holds) {spec : NodeSpec}
    (hp : session.perform (.build spec) = some (answer, next)) {more : List Step}
    {others : List Answer} (hr : next.run more = some (others, final)) :
    ∃ i, next.held session.slots.size = some i
      ∧ spec.Describes session.held final.store i := by
  have hmoves := moves_run ((grows_perform_build hp).sound hs) hr
  simp only [perform, Option.map_eq_some_iff, Prod.exists] at hp
  obtain ⟨i, t, hb, heq⟩ := hp
  cases heq
  refine ⟨i, by simp [held], spec.describes_of_build hb fun j hj => ?_⟩
  rw [hmoves.content_eq ((size_read t i).symm ▸ hj)]
  exact content_read t i j

end Steps

end Session

end PathFunctions
