import PathFunctions.Proofs.Agreement

/-!
# Runs of a store

Whatever is done with a store, its nodes stay as they were built (`madeOf_actAll`), no note is ever
out of date (`Current.actAll`), and no reply tells whether a text has been read before
(`actAll_read`). What sessions do with their stores are such runs (`exists_actAll_of_moves`).
-/

namespace PathFunctions

namespace Store

/-- Building a node around others, looking at all of a node but its text, reading its text, and
releasing all that does not live by some nodes. -/
inductive Action
  | build (content : Content)
  | look (i : Nat)
  | read (i : Nat)
  | release (held : List Nat)

inductive Reply
  | built (i : Nat)
  | seen (content : Content) (uri : Option String) (parent : Option Nat)
  | text (text : String)
  | released

def act (s : Store) : Action → Reply × Store
  | .build content => (.built (s.add content).1, (s.add content).2)
  | .look i => (.seen (s.content i) (s.baseUri i) (s.parent i), s)
  | .read i => (.text (s.read i).1, (s.read i).2)
  | .release held => (.released, s.release held)

def actAll (s : Store) : List Action → List Reply × Store
  | [] => ([], s)
  | action :: actions =>
    let (reply, s) := s.act action
    let (replies, s) := s.actAll actions
    (reply :: replies, s)

/-- What the nodes built are made of, in the order of their numbers. -/
def built : List Action → List Content
  | [] => []
  | .build content :: actions => content :: built actions
  | .look _ :: actions | .read _ :: actions | .release _ :: actions => built actions

/-- Each lists only what comes before it. -/
def Ordered (contents : List Content) : Prop :=
  ∀ (i : Nat) (content : Content), contents[i]? = some content → ∀ j ∈ content.listed, j < i

section Runs

theorem actAll_cons (s : Store) (action : Action) (actions : List Action) :
    s.actAll (action :: actions) = ((s.act action).1 :: ((s.act action).2.actAll actions).1,
      ((s.act action).2.actAll actions).2) := rfl

theorem actAll_append : ∀ (before after : List Action) (s : Store),
    s.actAll (before ++ after) = ((s.actAll before).1 ++ ((s.actAll before).2.actAll after).1,
      ((s.actAll before).2.actAll after).2)
  | [], _, _ => rfl
  | action :: before, after, s => by
    rw [List.cons_append, actAll_cons, actAll_append before after]
    rfl

theorem built_append : ∀ before after : List Action,
    built (before ++ after) = built before ++ built after
  | [], _ => rfl
  | .build content :: before, after => congrArg (content :: ·) (built_append before after)
  | .look _ :: before, after | .read _ :: before, after | .release _ :: before, after =>
    built_append before after

/-- The nodes of a store are made of these contents, one after another. -/
structure MadeOf (s : Store) (contents : List Content) : Prop where
  size : s.size = contents.length
  content : ∀ (i : Nat) (content : Content), contents[i]? = some content → s.content i = content

variable {s t : Store} {contents : List Content}

theorem MadeOf.congr (h : s.MadeOf contents) (hsize : t.size = s.size)
    (hcontent : ∀ i, t.content i = s.content i) : t.MadeOf contents where
  size := hsize.trans h.size
  content i content hi := (hcontent i).trans (h.content i content hi)

theorem MadeOf.add (h : s.MadeOf contents) (content : Content) :
    (s.add content).2.MadeOf (contents ++ [content]) where
  size := by rw [size_add, h.size, List.length_append, List.length_singleton]
  content i found hi := by
    rw [content_add, h.size]
    split
    · rename_i heq
      rw [heq, List.getElem?_concat_length] at hi
      exact Option.some.inj hi
    · rename_i hne
      have hlt := (List.getElem?_eq_some_iff.mp hi).1
      rw [List.length_append, List.length_singleton] at hlt
      rw [List.getElem?_append_left (by omega)] at hi
      exact h.content i found hi

theorem MadeOf.act (h : s.MadeOf contents) : ∀ action : Action,
    (s.act action).2.MadeOf (contents ++ built [action])
  | .build content => h.add content
  | .look _ => by rwa [built, built, List.append_nil]
  | .read i => by
    rw [built, built, List.append_nil]
    exact h.congr (size_read s i) (content_read s i)
  | .release held => by
    rw [built, built, List.append_nil]
    exact h.congr (size_release s held) (content_release s held)

theorem MadeOf.actAll : ∀ (actions : List Action) {s : Store} {contents : List Content},
    s.MadeOf contents → (s.actAll actions).2.MadeOf (contents ++ built actions)
  | [], _, _, h => by rwa [built, List.append_nil]
  | action :: actions, s, contents, h => by
    have hbuilt : built (action :: actions) = built [action] ++ built actions :=
      built_append [action] actions
    rw [hbuilt, ← List.append_assoc]
    exact (h.act action).actAll actions

theorem madeOf_actAll (actions : List Action) :
    (empty.actAll actions).2.MadeOf (built actions) := by
  have hempty : empty.MadeOf [] := ⟨rfl, nofun⟩
  exact hempty.actAll actions

theorem MadeOf.layered (h : s.MadeOf contents) (ho : Ordered contents) : s.Layered := by
  intro p i hi
  have hlt : p < contents.length := h.size ▸ lt_size_of_listed hi
  have hp := List.getElem?_eq_getElem hlt
  rw [h.content p _ hp] at hi
  exact ho p _ hp i hi

theorem Current.act (h : s.Current) : ∀ action : Action, (s.act action).2.Current
  | .build content => h.add content
  | .look _ => h
  | .read i => h.read i
  | .release held => h.release held

theorem Current.actAll : ∀ (actions : List Action) {s : Store}, s.Current →
    (s.actAll actions).2.Current
  | [], _, h => h
  | action :: actions, _, h => (h.act action).actAll actions

theorem Agree.act (h : s.Agree t) : ∀ action : Action,
    (t.act action).1 = (s.act action).1 ∧ (s.act action).2.Agree (t.act action).2
  | .build content => ⟨congrArg Reply.built h.size, h.add content⟩
  | .look i => ⟨by simp only [Store.act, h.content, h.baseUri, h.parent], h⟩
  | .read i => ⟨congrArg Reply.text (h.text i), h.read i⟩
  | .release held => ⟨rfl, h.release held⟩

theorem Agree.actAll : ∀ (actions : List Action) {s t : Store}, s.Agree t →
    (t.actAll actions).1 = (s.actAll actions).1
  | [], _, _, _ => rfl
  | action :: actions, _, _, h => by
    obtain ⟨hreply, hnext⟩ := h.act action
    exact congrArg₂ List.cons hreply (hnext.actAll actions)

end Runs

section Moves

variable {s t : Store} {held kept : Set Nat}

theorem Ordered.concat {contents : List Content} (h : Ordered contents) {content : Content}
    (hlisted : ∀ i ∈ content.listed, i < contents.length) : Ordered (contents ++ [content]) := by
  intro i found hi
  by_cases hlt : i < contents.length
  · rw [List.getElem?_append_left hlt] at hi
    exact h i found hi
  · have hle := (List.getElem?_eq_some_iff.mp hi).1
    rw [List.length_append, List.length_singleton] at hle
    have heq : i = contents.length := by omega
    rw [heq, List.getElem?_concat_length] at hi
    rwa [heq, ← Option.some.inj hi]

/-- One action more. -/
theorem exists_actAll_act (h : ∃ actions, Ordered (built actions) ∧ (empty.actAll actions).2 = s)
    (action : Action) (hlisted : ∀ content ∈ built [action], ∀ i ∈ content.listed, i < s.size) :
    ∃ actions, Ordered (built actions) ∧ (empty.actAll actions).2 = (s.act action).2 := by
  obtain ⟨actions, ho, rfl⟩ := h
  refine ⟨actions ++ [action], ?_, by rw [actAll_append]; rfl⟩
  rw [(madeOf_actAll actions).size] at hlisted
  rw [built_append]
  rcases action with content | _ | _ | _
  · exact ho.concat (hlisted content (List.mem_singleton_self content))
  all_goals rwa [built, built, List.append_nil]

theorem exists_actAll_of_grows (hs : Sound s held) (h : Grows s held t kept)
    (hstart : ∃ actions, Ordered (built actions) ∧ (empty.actAll actions).2 = s) :
    ∃ actions, Ordered (built actions) ∧ (empty.actAll actions).2 = t := by
  induction h with
  | start => exact hstart
  | @add t kept content h hlisted ih =>
    refine exists_actAll_act ih (.build content) fun found hf i hi => ?_
    cases List.mem_singleton.mp hf
    exact (h.sound hs).held_lt i (hlisted i hi)
  | hold _ _ _ ih => exact ih
  | read i _ ih => exact exists_actAll_act ih (.read i) nofun

theorem exists_actAll_of_moves (h : Moves .empty ∅ s held) :
    ∃ actions, Ordered (built actions) ∧ (empty.actAll actions).2 = s := by
  induction h with
  | start => exact ⟨[], nofun, rfl⟩
  | grow h hg ih => exact exists_actAll_of_grows (h.sound sound_empty) hg ih
  | @release _ _ kept _ _ ih => exact exists_actAll_act ih (.release kept) nofun

end Moves

end Store

end PathFunctions
