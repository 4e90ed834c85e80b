import PathFunctions.Proofs.Sessions
import PathFunctions.Proofs.Texts

/-!
# Stores that differ in their notes

Two stores agree if they differ in nothing but what is noted down, and no note of theirs is out of
date. They answer alike whatever is asked of them, and still agree afterwards
(`Session.exists_perform`, `Session.exists_run`). A store agrees with itself after a read
(`Store.agree_read`), so a read cannot be told from the answers to later steps.
-/

namespace PathFunctions

section Follow

variable {M N : Type} [Node M] [Node N] {e : N → M}

/-- Nodes are taken to nodes that look the same but for their texts. -/
structure Corresponds (e : N → M) : Prop where
  kind : ∀ node, Node.kind (e node) = Node.kind node
  name : ∀ node, Node.name (e node) = Node.name node
  parent : ∀ node, Node.parent (e node) = (Node.parent node).map e
  children : ∀ node, Node.children (e node) = (Node.children node).map e
  attributes : ∀ node, Node.attributes (e node) = (Node.attributes node).map e

theorem Corresponds.hasLocalName (h : Corresponds e) (name : String) (node : N) :
    Node.hasLocalName name (e node) = Node.hasLocalName name node := by
  rw [Node.hasLocalName, Node.hasLocalName, h.name]

theorem Corresponds.nodes (h : Corresponds e) (node : N) : ∀ step : PathStep,
    step.nodes (e node) = (step.nodes node).map e
  | .child index => by
    simp only [PathStep.nodes, h.children, List.getElem?_map]
    cases (Node.children node)[index]? <;> rfl
  | .children => h.children node
  | .attributes => h.attributes node
  | .parent => by
    simp only [PathStep.nodes, h.parent]
    cases Node.parent node <;> rfl
  | .attribute name => by
    have hname : Node.hasLocalName name ∘ e = Node.hasLocalName name :=
      funext (h.hasLocalName name)
    simp only [PathStep.nodes, Node.attribute?, h.attributes, List.find?_map, hname]
    cases (Node.attributes node).find? (Node.hasLocalName name) <;> rfl
  | .elements name => by
    simp only [PathStep.nodes, Node.elements, h.children, List.filter_map, Function.comp_def,
      h.kind, h.hasLocalName]

theorem Corresponds.follow (h : Corresponds e) : ∀ (path : List PathStep) (node : N),
    follow path (e node) = (follow path node).map e
  | [], _ => rfl
  | step :: path, node => by
    have hrest : (fun next => PathFunctions.follow path (e next))
        = fun next => (PathFunctions.follow path next).map e := funext (h.follow path)
    rw [PathFunctions.follow, PathFunctions.follow, h.nodes, List.flatMap_map, List.map_flatMap,
      hrest]

end Follow

namespace Store

structure Agree (s t : Store) : Prop where
  size : t.size = s.size
  content : ∀ i, t.content i = s.content i
  parent : ∀ i, t.parent i = s.parent i
  current_left : s.Current
  current_right : t.Current

variable {s t : Store}

theorem Agree.refl (h : s.Current) : s.Agree s := ⟨rfl, fun _ => rfl, fun _ => rfl, h, h⟩

theorem Agree.symm (h : s.Agree t) : t.Agree s where
  size := h.size.symm
  content i := (h.content i).symm
  parent i := (h.parent i).symm
  current_left := h.current_right
  current_right := h.current_left

theorem Agree.trans {u : Store} (h : s.Agree t) (h' : t.Agree u) : s.Agree u where
  size := h'.size.trans h.size
  content i := (h'.content i).trans (h.content i)
  parent i := (h'.parent i).trans (h.parent i)
  current_left := h.current_left
  current_right := h'.current_right

theorem Agree.add (h : s.Agree t) (content : Content) :
    (s.add content).2.Agree (t.add content).2 where
  size := by rw [size_add, size_add, h.size]
  content i := by rw [content_add, content_add, h.size, h.content]
  parent i := by rw [parent_add, parent_add, h.size, h.parent]
  current_left := h.current_left.add content
  current_right := h.current_right.add content

theorem Agree.exists_add (h : s.Agree t) {content : Content} {i : Nat} {s' : Store}
    (hadd : s.add content = (i, s')) : ∃ t', t.add content = (i, t') ∧ s'.Agree t' := by
  cases hadd
  exact ⟨(t.add content).2, Prod.ext h.size rfl, h.add content⟩

theorem Agree.read (h : s.Agree t) (i : Nat) : (s.read i).2.Agree (t.read i).2 where
  size := by rw [size_read, size_read, h.size]
  content j := by rw [content_read, content_read, h.content]
  parent j := by rw [parent_read, parent_read, h.parent]
  current_left := h.current_left.read i
  current_right := h.current_right.read i

theorem markListed_congr (h : ∀ i, t.content i = s.content i) :
    ∀ (n : Nat) (marks : Array Bool), t.markListed n marks = s.markListed n marks
  | 0, _ => rfl
  | n + 1, _ => by
    rw [markListed, markListed, h]
    exact markListed_congr h n _

theorem Agree.release (h : s.Agree t) (held : List Nat) :
    (s.release held).Agree (t.release held) where
  size := by rw [size_release, size_release, h.size]
  content i := by rw [content_release, content_release, h.content]
  parent i := by
    have hlives : t.lives held = s.lives held := by
      funext j
      rw [lives, lives, living, living, h.size, markListed_congr h.content]
    rw [parent_release, parent_release, h.parent, hlives]
  current_left := h.current_left.release held
  current_right := h.current_right.release held

theorem Agree.text (h : s.Agree t) (i : Nat) : t.text i = s.text i := by
  have hbelow : t.textBelow i = s.textBelow i := textBelow_congr fun j _ => h.content j
  cases hv : (s.content i).value with
  | some value => rw [Store.text, Store.text, h.content, hv]
  | none =>
    rw [h.current_left.text_of_value hv, h.current_right.text_of_value (h.content i ▸ hv), hbelow]

theorem Agree.baseUri (h : s.Agree t) (i : Nat) : t.baseUri i = s.baseUri i := by
  have hparents : ∀ parent, (if _h : i < parent ∧ parent < t.size then t.baseUri parent else none)
      = if _h : i < parent ∧ parent < s.size then s.baseUri parent else none := by
    intro parent
    simp only [h.size]
    split
    · rename_i hlt
      exact h.baseUri parent
    · rfl
  rw [Store.baseUri, Store.baseUri, h.content, h.parent]
  simp only [hparents]
termination_by s.size - i

theorem Agree.view (h : s.Agree t) (i : Nat) :
    (t.view i).1 = (s.view i).1 ∧ (s.view i).2.Agree (t.view i).2 := by
  refine ⟨?_, h.read i⟩
  simp only [Store.view, Store.read, h.content, h.parent, h.text, h.baseUri]

theorem Agree.viewAll : ∀ (is : List Nat) {s t : Store}, s.Agree t →
    (Store.viewAll is t).1 = (Store.viewAll is s).1
      ∧ (Store.viewAll is s).2.Agree (Store.viewAll is t).2
  | [], _, _, h => ⟨rfl, h⟩
  | i :: is, s, t, h => by
    obtain ⟨hview, hread⟩ := h.view i
    obtain ⟨hviews, hlast⟩ := hread.viewAll is
    exact ⟨congrArg₂ List.cons hview hviews, hlast⟩

theorem Agree.corresponds (h : s.Agree t) :
    Corresponds fun node : Handle s => (Handle.mk node.id : Handle t) where
  kind node := congrArg Content.kind (h.content node.id)
  name node := congrArg Content.name (h.content node.id)
  parent node := by
    simp only [Node.parent, h.parent, Option.map_map]
    rfl
  children node := by
    simp only [Node.children, h.content, List.map_map]
    rfl
  attributes node := by
    simp only [Node.attributes, h.content, List.map_map]
    rfl

theorem Agree.follow (h : s.Agree t) (path : List PathStep) (i : Nat) :
    (PathFunctions.follow path (Handle.mk i : Handle t)).map Handle.id
      = (PathFunctions.follow path (Handle.mk i : Handle s)).map Handle.id := by
  rw [show (Handle.mk i : Handle t) = Handle.mk (Handle.mk i : Handle s).id from rfl,
    h.corresponds.follow, List.map_map]
  rfl

end Store

namespace NodeSpec

open Store

variable {lookup : Nat → Option Nat}

mutual

theorem exists_build : ∀ (spec : NodeSpec) {s t s' : Store} {i : Nat}, s.Agree t →
    spec.build lookup s = some (i, s') →
      ∃ t', spec.build lookup t = some (i, t') ∧ s'.Agree t'
  | .held slot, s, t, s', i, h, hb => by
    simp only [build, Option.map_eq_some_iff] at hb ⊢
    obtain ⟨j, hj, heq⟩ := hb
    cases heq
    exact ⟨t, ⟨i, hj, rfl⟩, h⟩
  | .text _, s, t, s', i, h, hb | .comment _, s, t, s', i, h, hb
  | .attribute _ _, s, t, s', i, h, hb => by
    obtain ⟨t', ht, h'⟩ := h.exists_add (Option.some.inj hb)
    exact ⟨t', congrArg some ht, h'⟩
  | .element _ _ attributes children, s, t, s', i, h, hb
  | .document _ attributes children, s, t, s', i, h, hb => by
    simp only [build_element, build_document] at hb ⊢
    obtain ⟨as, s₁, cs, s₂, has, hcs, hadd⟩ := buildAround_iff.mp hb
    obtain ⟨t₁, has', h₁⟩ := exists_buildAll attributes h has
    obtain ⟨t₂, hcs', h₂⟩ := exists_buildAll children h₁ hcs
    obtain ⟨t', ht, h'⟩ := h₂.exists_add hadd
    exact ⟨t', buildAround_iff.mpr ⟨as, t₁, cs, t₂, has', hcs', ht⟩, h'⟩

theorem exists_buildAll : ∀ (specs : List NodeSpec) {s t s' : Store} {is : List Nat}, s.Agree t →
    buildAll lookup specs s = some (is, s') →
      ∃ t', buildAll lookup specs t = some (is, t') ∧ s'.Agree t'
  | [], s, t, s', is, h, hb => by
    cases hb
    exact ⟨t, rfl, h⟩
  | spec :: specs, s, t, s', is, h, hb => by
    obtain ⟨i, s₁, js, hi, hjs, heq⟩ := buildAll_cons_iff.mp hb
    obtain ⟨t₁, hi', h₁⟩ := exists_build spec h hi
    obtain ⟨t₂, hjs', h₂⟩ := exists_buildAll specs h₁ hjs
    exact ⟨t₂, buildAll_cons_iff.mpr ⟨i, t₁, js, hi', hjs', heq⟩, h₂⟩

end

end NodeSpec

namespace Session

open Store

structure Agree (a b : Session) : Prop where
  store : a.store.Agree b.store
  slots : b.slots = a.slots

section Steps

variable {a b a' : Session} {answer : Answer}

theorem Agree.symm (h : a.Agree b) : b.Agree a := ⟨h.store.symm, h.slots.symm⟩

theorem Agree.held (h : a.Agree b) : b.held = a.held := by
  funext slot
  rw [Session.held, Session.held, h.slots]

theorem Agree.find (h : a.Agree b) (slot : Nat) (path : List PathStep) :
    b.find slot path = a.find slot path := by
  simp only [Session.find, h.held, h.store.follow path]

theorem Agree.exists_hold (h : a.Agree b) {i : Nat} {s t : Store} (hst : s.Agree t)
    (heq : a.hold (i, s) = (answer, a')) :
    ∃ b', b.hold (i, t) = (answer, b') ∧ a'.Agree b' := by
  obtain ⟨hview, hread⟩ := hst.view i
  cases heq
  exact ⟨_, Prod.ext (congrArg Answer.node hview) rfl, hread,
    congrArg (fun slots => slots.push (some i)) h.slots⟩

theorem Agree.exists_present (h : a.Agree b) {found kept : List Nat}
    (heq : a.present found kept = (answer, a')) :
    ∃ b', b.present found kept = (answer, b') ∧ a'.Agree b' := by
  obtain ⟨hviews, hread⟩ := h.store.viewAll found
  cases heq
  exact ⟨_, Prod.ext (congrArg Answer.nodes hviews) rfl, hread,
    congrArg (fun slots => slots ++ (kept.map some).toArray) h.slots⟩

theorem Agree.vacate (h : a.Agree b) (slot : Nat) : (a.vacate slot).Agree (b.vacate slot) := by
  refine ⟨?_, ?_⟩
  · rw [Session.vacate, Session.vacate, h.slots]
    exact h.store.release _
  · rw [Session.vacate, Session.vacate, h.slots]

theorem exists_perform_build (h : a.Agree b) {spec : NodeSpec}
    (hp : a.perform (.build spec) = some (answer, a')) :
    ∃ b', b.perform (.build spec) = some (answer, b') ∧ a'.Agree b' := by
  simp only [perform, Option.map_eq_some_iff, h.held] at hp ⊢
  obtain ⟨⟨i, s⟩, hb, heq⟩ := hp
  obtain ⟨t, ht, hst⟩ := spec.exists_build h.store hb
  obtain ⟨b', heq', h'⟩ := h.exists_hold hst heq
  exact ⟨b', ⟨(i, t), ht, heq'⟩, h'⟩

theorem exists_perform (h : a.Agree b) {step : Step} (hp : a.perform step = some (answer, a')) :
    ∃ b', b.perform step = some (answer, b') ∧ a'.Agree b' := by
  cases step with
  | build spec => exact exists_perform_build h hp
  | wrap slot name depth =>
    rw [perform_wrap] at hp ⊢
    exact exists_perform_build h hp
  | get slot path =>
    simp only [perform, Option.map_eq_some_iff, h.find] at hp ⊢
    obtain ⟨found, hf, heq⟩ := hp
    obtain ⟨b', heq', h'⟩ := h.exists_present heq
    exact ⟨b', ⟨found, hf, heq'⟩, h'⟩
  | keep slot path =>
    simp only [perform, Option.map_eq_some_iff, h.find] at hp ⊢
    obtain ⟨found, hf, heq⟩ := hp
    obtain ⟨b', heq', h'⟩ := h.exists_present heq
    exact ⟨b', ⟨found, hf, heq'⟩, h'⟩
  | drop slot =>
    simp only [perform, h.slots] at hp ⊢
    split at hp
    · rename_i hlt
      cases hp
      exact ⟨b.vacate slot, if_pos hlt, h.vacate slot⟩
    · cases hp
  | same slot other =>
    simp only [perform, Option.bind_eq_bind, Option.bind_eq_some_iff, h.held] at hp ⊢
    obtain ⟨i, hi, j, hj, heq⟩ := hp
    cases heq
    exact ⟨b, ⟨i, hi, j, hj, rfl⟩, h⟩
  | describe slot =>
    simp only [perform, Option.map_eq_some_iff, h.held, h.store.content] at hp ⊢
    obtain ⟨i, hi, heq⟩ := hp
    cases heq
    exact ⟨b, ⟨i, hi, rfl⟩, h⟩

end Steps

section Runs

theorem exists_run : ∀ {steps : List Step} {a b a' : Session} {answers : List Answer},
    a.Agree b → a.run steps = some (answers, a') →
      ∃ b', b.run steps = some (answers, b') ∧ a'.Agree b'
  | [], a, b, a', answers, h, hr => by
    cases hr
    exact ⟨b, rfl, h⟩
  | step :: steps, a, b, a', answers, h, hr => by
    obtain ⟨answer, next, rest, hp, hr, heq⟩ := run_cons_iff.mp hr
    obtain ⟨b₁, hp', h₁⟩ := exists_perform h hp
    obtain ⟨b₂, hr', h₂⟩ := exists_run h₁ hr
    exact ⟨b₂, run_cons_iff.mpr ⟨answer, b₁, rest, hp', hr', heq⟩, h₂⟩

/-- Sessions that agree answer alike, and fail alike. -/
theorem Agree.run {a b : Session} (h : a.Agree b) (steps : List Step) :
    (b.run steps).map Prod.fst = (a.run steps).map Prod.fst := by
  refine Option.ext fun answers => ?_
  simp only [Option.map_eq_some_iff, Prod.exists, exists_and_right, exists_eq_right]
  constructor
  · rintro ⟨b', hb⟩
    obtain ⟨a', ha, -⟩ := exists_run h.symm hb
    exact ⟨a', ha⟩
  · rintro ⟨a', ha⟩
    obtain ⟨b', hb, -⟩ := exists_run h ha
    exact ⟨b', hb⟩

/-- A session after the text of a node has been read. -/
def read (session : Session) (i : Nat) : Session := ⟨(session.store.read i).2, session.slots⟩

end Runs

end Session

end PathFunctions
