import Mathlib.Logic.Relation
import PathFunctions.Proofs.Contents
import PathFunctions.Proofs.Parents

/-!
# Ancestry

Nodes are younger than what they list and older than their parents. So no node is above or below
itself, the descent to the texts below a node ends (`Layered.textWithin_eq`), and so does the climb
from a node through its parents (`Sound.exists_climb`), whose first URI is the base URI of the node
(`Climb.baseUri_eq`). What is put around the top of the climb only makes it longer
(`Climb.exists_append`).
-/

namespace PathFunctions

namespace Store

section Climbs

/-- A node, its parent, the parent of that one and so on, up to a node without a parent. -/
inductive Climb (s : Store) : Nat → List Nat → Prop
  | top {i : Nat} : s.parent i = none → Climb s i [i]
  | step {i p : Nat} {above : List Nat} :
      s.parent i = some p → Climb s p above → Climb s i (i :: above)

variable {s t : Store} {held kept : Set Nat} {i : Nat} {chain : List Nat}

theorem Sound.lt_of_parent (h : Sound s held) {n p : Nat} (hp : s.parent n = some p) : n < p :=
  h.layered p n (h.listed_of_parent hp)

theorem Sound.exists_climb (h : Sound s held) (i : Nat) : ∃ chain, Climb s i chain := by
  rcases hp : s.parent i with _ | p
  · exact ⟨[i], .top hp⟩
  · have hlt := h.lt_of_parent hp
    have hsize := lt_size_of_listed (h.listed_of_parent hp)
    obtain ⟨above, habove⟩ := h.exists_climb p
    exact ⟨i :: above, .step hp habove⟩
termination_by s.size - i

theorem Climb.unique (h : Climb s i chain) :
    ∀ {other : List Nat}, Climb s i other → other = chain := by
  induction h with
  | top hp =>
    rintro _ (_ | ⟨hq, -⟩)
    · rfl
    · cases hp.symm.trans hq
  | step hp _ ih =>
    rintro _ (hq | ⟨hq, hc⟩)
    · cases hp.symm.trans hq
    · cases hp.symm.trans hq
      rw [ih hc]

theorem Climb.alive (hs : Sound s held) (h : Climb s i chain) (hi : Alive s held i) :
    ∀ j ∈ chain, Alive s held j := by
  induction h with
  | top _ =>
    intro j hj
    rwa [List.mem_singleton.mp hj]
  | step hp _ ih =>
    intro j hj
    rcases List.mem_cons.mp hj with rfl | hj
    · exact hi
    · exact ih ((hs.parent_iff _ _).mp hp).2 j hj

/-- The climb ends at a node that nothing lists or whose last parent has died. -/
theorem Climb.exists_top (hs : Sound s held) (h : Climb s i chain) :
    ∃ top, chain.getLast? = some top ∧ s.parent top = none
      ∧ (s.listers top = ∅ ∨ ∃ p, IsGreatest (s.listers top) p ∧ ¬ Alive s held p) := by
  induction h with
  | @top i hp =>
    refine ⟨i, rfl, hp, ?_⟩
    rcases (s.listers i).eq_empty_or_nonempty with hnone | ⟨q, hq⟩
    · exact .inl hnone
    · obtain ⟨p, hgreatest⟩ := exists_isGreatest_listers hq
      refine .inr ⟨p, hgreatest, fun halive => ?_⟩
      rw [(hs.parent_iff i p).mpr ⟨hgreatest, halive⟩] at hp
      cases hp
  | step _ hc ih =>
    obtain ⟨top, htop, hrest⟩ := ih
    refine ⟨top, ?_, hrest⟩
    rw [List.getLast?_cons, htop]
    rfl

theorem Climb.baseUri_eq (hs : Sound s held) (h : Climb s i chain) :
    s.baseUri i = chain.findSome? fun j => (s.content j).uri := by
  induction h with
  | @top i hp =>
    rw [baseUri, hp, List.findSome?_singleton]
    rcases (s.content i).uri with _ | uri <;> rfl
  | @step i p above hp _ ih =>
    have hlt := hs.lt_of_parent hp
    have hsize := lt_size_of_listed (hs.listed_of_parent hp)
    rw [baseUri, hp, List.findSome?_cons, ← ih]
    rcases (s.content i).uri with _ | uri
    · exact dif_pos ⟨hlt, hsize⟩
    · rfl

/-- As long as the nodes of a climb keep the parents they have, what is new can only be above. -/
theorem Climb.exists_append (ht : Sound t kept) (h : Climb s i chain)
    (hparent : ∀ j ∈ chain, ∀ p, s.parent j = some p → t.parent j = some p) :
    ∃ more, Climb t i (chain ++ more) := by
  induction h with
  | @top i _ =>
    obtain ⟨above, habove⟩ := ht.exists_climb i
    cases habove with
    | top hp => exact ⟨[], .top hp⟩
    | @step _ _ above hp hc => exact ⟨above, .step hp hc⟩
  | step hp _ ih =>
    obtain ⟨more, hmore⟩ := ih fun j hj => hparent j (List.mem_cons_of_mem _ hj)
    exact ⟨more, .step (hparent _ List.mem_cons_self _ hp) hmore⟩

/-- A base URI that has been found stays when something is put around the top of the climb. -/
theorem Climb.baseUri_grows (hs : Sound s held) (hg : Grows s held t kept) (h : Climb s i chain)
    (hi : Alive s held i) {uri : String} (huri : s.baseUri i = some uri)
    (hparent : ∀ j ∈ chain, ∀ p, s.parent j = some p → t.parent j = some p) :
    t.baseUri i = some uri := by
  have ht := hg.sound hs
  have hsame : (chain.findSome? fun j => (t.content j).uri)
      = chain.findSome? fun j => (s.content j).uri := by
    rw [← List.head?_filterMap, ← List.head?_filterMap]
    refine congrArg List.head? (List.filterMap_congr fun j hj => ?_)
    rw [hg.content_eq (hs.alive_lt (h.alive hs hi j hj))]
  obtain ⟨more, hmore⟩ := h.exists_append ht hparent
  rw [hmore.baseUri_eq ht, List.findSome?_append, hsame, ← h.baseUri_eq hs, huri]
  rfl

theorem parent_wrap (name : String) : ∀ (depth : Nat) {s : Store} {i n : Nat},
    n < s.size → n ≠ i → (s.wrap name depth i).2.parent n = s.parent n
  | 0, _, _, _, _, _ => rfl
  | depth + 1, s, i, n, hn, hne => by
    have hlisted : n ∉ (Content.element name none [] [i]).listed := by
      simpa [Content.listed, Content.attributes, Content.children] using hne
    have hadd : (s.add (.element name none [] [i])).2.parent n = s.parent n := by
      rw [parent_add, if_neg fun h => hlisted h.1]
    have hrest := parent_wrap name depth (s := (s.add (.element name none [] [i])).2) (i := s.size)
      (n := n) (by rw [size_add]; omega) (Nat.ne_of_lt hn)
    exact hrest.trans hadd

end Climbs

section Order

variable {s : Store} {held : Set Nat}

theorem Layered.lt_of_transGen (hs : s.Layered) {p i : Nat}
    (h : Relation.TransGen (fun p i => i ∈ (s.content p).listed) p i) : i < p := by
  induction h with
  | single hi => exact hs _ _ hi
  | tail _ hi ih => exact (hs _ _ hi).trans ih

theorem Sound.lt_of_transGen (hs : Sound s held) {n p : Nat}
    (h : Relation.TransGen (fun n p => s.parent n = some p) n p) : n < p := by
  induction h with
  | single hp => exact hs.lt_of_parent hp
  | tail _ hp ih => exact ih.trans (hs.lt_of_parent hp)

/-- The texts at and below a node, if no way down is longer than `depth` nodes. -/
def textWithin (s : Store) : Nat → Nat → Option String
  | 0, _ => none
  | depth + 1, i =>
    match s.content i with
    | .text value => some value
    | content => (content.children.mapM (s.textWithin depth)).map String.join

theorem mapM_eq_some_map {α β : Type} {f : α → Option β} {g : α → β} :
    ∀ {l : List α}, (∀ a ∈ l, f a = some (g a)) → l.mapM f = some (l.map g)
  | [], _ => rfl
  | a :: l, h => by
    rw [List.mapM_cons, h a List.mem_cons_self,
      mapM_eq_some_map fun b hb => h b (List.mem_cons_of_mem _ hb)]
    rfl

theorem Layered.textWithin_eq (hs : s.Layered) : ∀ {depth i : Nat}, i < depth →
    s.textWithin depth i = some (s.textBelow i)
  | depth + 1, i, hi => by
    have hchild : ∀ child ∈ (s.content i).children, child < i := fun child hc =>
      hs i child (List.mem_append_right _ hc)
    have hbelow : ∀ child ∈ (s.content i).children, s.textWithin depth child
        = some (if _h : child < i then s.textBelow child else "") := by
      intro child hc
      have hlt := hchild child hc
      rw [dif_pos hlt, hs.textWithin_eq (by omega)]
    rw [textWithin, textBelow]
    rcases hc : s.content i with value | value | ⟨name, value⟩ | _ | _
    · rfl
    all_goals
      rw [hc] at hbelow
      exact congrArg (Option.map String.join) (mapM_eq_some_map hbelow)

end Order

end Store

namespace Session

open Store

variable {session next : Session} {answer : Answer}

theorem parent_perform_wrap {slot top : Nat} {name : String} {depth : Nat}
    (hslot : session.held slot = some top)
    (hp : session.perform (.wrap slot name depth) = some (answer, next)) (n : Nat) :
    next.store.parent n = (session.store.wrap name depth top).2.parent n := by
  simp only [perform, hslot, Option.map_some, Option.some.injEq] at hp
  have hnext : next = (session.hold (session.store.wrap name depth top)).2 :=
    (congrArg Prod.snd hp).symm
  rw [hnext]
  exact parent_read _ _ n

/-- Whatever the elements are called and however many there are, a base URI that has been found is
there after the top of the climb has been wrapped. -/
theorem baseUri_wrap (hs : Sound session.store session.holds) {n top slot : Nat}
    {chain : List Nat} {uri : String} (hn : session.Alive n) (hc : Climb session.store n chain)
    (htop : session.store.parent top = none) (hslot : session.held slot = some top)
    (huri : session.store.baseUri n = some uri) (name : String) (depth : Nat) :
    ∃ answer next, session.perform (.wrap slot name depth) = some (answer, next)
      ∧ next.store.baseUri n = some uri := by
  obtain ⟨⟨answer, next⟩, hp⟩ :
      ∃ found, session.perform (.wrap slot name depth) = some found :=
    ⟨_, by rw [perform, hslot, Option.map_some]⟩
  have hgrows := grows_perform hs (fun other h => by cases h) hp
  refine ⟨answer, next, hp, hc.baseUri_grows hs hgrows hn huri fun j hj p hparent => ?_⟩
  have hne : j ≠ top := by
    rintro rfl
    cases hparent.symm.trans htop
  rw [parent_perform_wrap hslot hp, parent_wrap name depth (hs.alive_lt (hc.alive hs hn j hj)) hne,
    hparent]

/-- After any steps a node is younger than what it lists and older than its parent, so none is above
or below itself, and the text of a container is found by a descent that its number bounds. Own URIs
are those of the specs, the last of several. The parents of a node make one chain, which ends at a
node that nothing lists or whose last parent has died, and the base URI is the first URI on it. It
stays when the end of the chain is wrapped, and when the nodes of the chain that have parents keep
them in any other step. -/
theorem base_uris_of_run {steps : List Step} {session : Session} {answers : List Answer}
    (h : Session.empty.run steps = some (answers, session)) :
    (∀ p i, i ∈ (session.store.content p).children ∨ i ∈ (session.store.content p).attributes →
        i < p)
      ∧ (∀ n p, session.store.parent n = some p → n < p)
      ∧ (∀ i, ¬ Relation.TransGen (fun p i => i ∈ (session.store.content p).listed) i i
        ∧ ¬ Relation.TransGen (fun n p => session.store.parent n = some p) i i)
      ∧ (∀ i depth, (session.store.content i).value = none → i < depth →
        session.store.textWithin depth i = some (session.store.text i))
      ∧ (∀ spec answer next more others final,
        session.perform (.build spec) = some (answer, next) →
          next.run more = some (others, final) → ∃ i, next.held session.slots.size = some i
            ∧ spec.Describes session.held final.store i)
      ∧ (∀ n, ∃! chain, Climb session.store n chain)
      ∧ ∀ n chain, session.Alive n → Climb session.store n chain →
        (∀ j ∈ chain, session.Alive j)
          ∧ session.store.baseUri n = chain.findSome? (fun j => (session.store.content j).uri)
          ∧ (∃ top, chain.getLast? = some top
            ∧ (session.store.listers top = ∅
              ∨ ∃ p, IsGreatest (session.store.listers top) p ∧ ¬ session.Alive p)
            ∧ ∀ slot name depth uri, session.held slot = some top →
              session.store.baseUri n = some uri →
                ∃ answer next, session.perform (.wrap slot name depth) = some (answer, next)
                  ∧ next.store.baseUri n = some uri)
          ∧ ∀ step answer next uri, (∀ slot, step ≠ .drop slot) →
            session.perform step = some (answer, next) →
              (∀ j ∈ chain, ∀ p, session.store.parent j = some p →
                next.store.parent j = some p) →
                session.store.baseUri n = some uri → next.store.baseUri n = some uri := by
  have hs := sound_of_run h
  have hcurrent : session.store.Current := by
    obtain ⟨actions, -, hstore⟩ := exists_actAll_of_moves (moves_of_run h)
    exact hstore ▸ current_empty.actAll actions
  refine ⟨fun p i hi => hs.layered p i (List.mem_append.mpr hi.symm), fun n p => hs.lt_of_parent,
    fun i => ⟨fun hi => ?_, fun hi => ?_⟩, fun i depth hvalue hi => ?_,
    fun spec answer next more others final hp hr => describes_of_perform hs hp hr,
    fun n => ?_, fun n chain hn hc => ⟨hc.alive hs hn, hc.baseUri_eq hs, ?_, ?_⟩⟩
  · exact absurd (hs.layered.lt_of_transGen hi) (Nat.lt_irrefl i)
  · exact absurd (hs.lt_of_transGen hi) (Nat.lt_irrefl i)
  · rw [hcurrent.text_of_value hvalue, hs.layered.textWithin_eq hi]
  · obtain ⟨chain, hc⟩ := hs.exists_climb n
    exact ⟨chain, hc, fun other ho => hc.unique ho⟩
  · obtain ⟨top, hlast, hnone, hend⟩ := hc.exists_top hs
    exact ⟨top, hlast, hend, fun slot name depth uri hslot huri =>
      baseUri_wrap hs hn hc hnone hslot huri name depth⟩
  · intro step answer next uri hstep hp hparent huri
    exact hc.baseUri_grows hs (grows_perform hs hstep hp) hn huri hparent

/-- A text below an element that was put into another one later, which has two URIs to choose from
and is wrapped in the end. -/
theorem base_uris_of_run_wrapped :
    ∃ answers session, Session.empty.run [.build (.text "t"),
        .build (.element "a" [] [] [.held 0]),
        .build (.element "b" ["urn:old", "urn:new"] [] [.held 1])] = some (answers, session)
      ∧ Climb session.store 0 [0, 1, 2]
      ∧ ∃ answer next, session.perform (.wrap 2 "w" 3) = some (answer, next)
        ∧ next.store.baseUri 0 = some "urn:new" := by
  have hrun : ((Session.empty.run [.build (.text "t"), .build (.element "a" [] [] [.held 0]),
      .build (.element "b" ["urn:old", "urn:new"] [] [.held 1])]).map fun found =>
        ((List.range 3).map found.2.store.parent,
          (List.range 3).map fun i => (found.2.store.content i).uri,
          (List.range 3).map found.2.held))
      = some ([some 1, some 2, none], [none, none, some "urn:new"], [some 0, some 1, some 2]) := by
    decide +kernel
  obtain ⟨⟨answers, session⟩, h, hfound⟩ := Option.map_eq_some_iff.mp hrun
  simp only [List.range, List.range.loop, List.map_cons, List.map_nil, Prod.mk.injEq,
    List.cons.injEq, and_true] at hfound
  obtain ⟨⟨hp₀, hp₁, hp₂⟩, ⟨hu₀, hu₁, hu₂⟩, hheld₀, -, hheld₂⟩ := hfound
  have hclimb : Climb session.store 0 [0, 1, 2] := .step hp₀ (.step hp₁ (.top hp₂))
  obtain ⟨-, -, -, -, -, -, hchain⟩ := base_uris_of_run h
  obtain ⟨-, huri, ⟨top, hlast, -, hwrap⟩, -⟩ := hchain 0 _ (.held ⟨0, hheld₀⟩) hclimb
  cases hlast
  refine ⟨answers, session, h, hclimb, hwrap 2 "w" 3 "urn:new" hheld₂ ?_⟩
  rw [huri, List.findSome?_cons, hu₀, List.findSome?_cons, hu₁, List.findSome?_singleton, hu₂]

end Session

end PathFunctions
