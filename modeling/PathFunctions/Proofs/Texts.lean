import Mathlib.Data.List.Basic
import PathFunctions.Store.Build
import PathFunctions.Store.Release
import PathFunctions.Store.Text

/-!
# What a container stands for

A container stands for the texts met on a walk through its children (`Current.text_eq`), provided
that no note is out of date. None ever is: the text of a node depends only on what the node and
older ones are made of (`textBelow_congr`), and nothing that happens to a store changes that.
-/

namespace PathFunctions

/-- What a node adds to the text of the containers around it. -/
def Content.ownText : Content → Option String
  | .text value => some value
  | .comment _ | .attribute .. | .element .. | .document .. => none

namespace Store

section Walks

/-- The nodes met on a walk from a node down through children, each before its children. -/
def preorder (s : Store) (i : Nat) : List Nat :=
  i :: (s.content i).children.flatMap fun child =>
    if _h : child < i then s.preorder child else []
termination_by i

variable {s t : Store}

/-- The texts among some nodes, joined in their order. -/
def joinTexts (s : Store) (is : List Nat) : String :=
  String.join (is.filterMap fun i => (s.content i).ownText)

theorem joinTexts_flatMap (s : Store) (f : Nat → List Nat) : ∀ is : List Nat,
    s.joinTexts (is.flatMap f) = String.join (is.map fun i => s.joinTexts (f i))
  | [] => rfl
  | i :: is => by
    rw [List.flatMap_cons, joinTexts, List.filterMap_append, String.join_append, List.map_cons,
      String.join_cons, ← joinTexts_flatMap s f is]
    rfl

theorem textBelow_eq (s : Store) (i : Nat) : s.textBelow i = s.joinTexts (s.preorder i) := by
  -- Descent and walk leave out the same children, so this holds in any store.
  have hbelow : ∀ child, (if _h : child < i then s.textBelow child else "")
      = s.joinTexts (if _h : child < i then s.preorder child else []) := by
    intro child
    split
    · exact textBelow_eq s child
    · rfl
  have hwalk : s.joinTexts (s.preorder i)
      = (s.content i).ownText.getD "" ++ String.join ((s.content i).children.map
        fun child => if _h : child < i then s.textBelow child else "") := by
    simp only [hbelow]
    rw [preorder, ← joinTexts_flatMap, joinTexts, List.filterMap_cons]
    cases (s.content i).ownText with
    | none => exact String.empty_append.symm
    | some value => exact String.join_cons
  rw [hwalk, textBelow]
  split
  · rename_i value hc
    simp [hc, Content.ownText, Content.children]
  · rename_i hc
    have hown : (s.content i).ownText = none := by
      cases h : s.content i with
      | text value => exact absurd h (hc value)
      | _ => rfl
    rw [hown, Option.getD_none, String.empty_append]
termination_by i

theorem textBelow_congr {i : Nat} (h : ∀ j ≤ i, t.content j = s.content j) :
    t.textBelow i = s.textBelow i := by
  have hbelow : ∀ child, (if _h : child < i then t.textBelow child else "")
      = if _h : child < i then s.textBelow child else "" := by
    intro child
    split
    · rename_i hlt
      exact textBelow_congr fun j hj => h j (Nat.le_trans hj (Nat.le_of_lt hlt))
    · rfl
  rw [textBelow, textBelow, h i (Nat.le_refl i)]
  simp only [hbelow]
termination_by i

end Walks

section Notes

/-- No note is out of date. -/
def Current (s : Store) : Prop := ∀ i text, s.noted i = some text → text = s.textBelow i

variable {s t : Store}

theorem lt_size_of_noted {i : Nat} {text : String} (h : s.noted i = some text) : i < s.size := by
  by_contra hi
  have hnone : s.records[i]? = none := Array.getElem?_eq_none (Nat.le_of_not_lt hi)
  rw [noted, hnone] at h
  cases h

theorem Current.congr (h : s.Current) (hnoted : ∀ i, t.noted i = s.noted i)
    (hcontent : ∀ i < s.size, t.content i = s.content i) : t.Current := by
  intro i text hi
  rw [hnoted] at hi
  have hlt := lt_size_of_noted hi
  rw [textBelow_congr fun j hj => hcontent j (Nat.lt_of_le_of_lt hj hlt)]
  exact h i text hi

theorem current_empty : empty.Current := fun i _ h =>
  absurd (lt_size_of_noted h) (Nat.not_lt_zero i)

theorem Current.add (h : s.Current) (content : Content) : (s.add content).2.Current :=
  h.congr (noted_add s content) fun i hi => by rw [content_add, if_neg (Nat.ne_of_lt hi)]

theorem Current.release (h : s.Current) (held : List Nat) : (s.release held).Current :=
  h.congr (noted_release s held) fun i _ => content_release s held i

theorem Current.text_of_value (h : s.Current) {i : Nat} (hi : (s.content i).value = none) :
    s.text i = s.textBelow i := by
  rw [text, hi]
  cases hn : s.noted i with
  | none => rfl
  | some text => exact h i text hn

theorem Current.read (h : s.Current) (i : Nat) : (s.read i).2.Current := by
  intro j text hj
  rw [textBelow_congr fun k _ => content_read s i k]
  simp only [Store.read] at hj
  split at hj
  · rename_i hv
    rw [noted_note] at hj
    split at hj
    · rename_i hij
      rw [← Option.some.inj hj, ← hij.1]
      exact h.text_of_value (Option.isNone_iff_eq_none.mp hv)
    · exact h j text hj
  · exact h j text hj

/-- What a node stands for, by what it is. -/
theorem Current.text_eq (h : s.Current) (i : Nat) :
    s.text i = match s.content i with
      | .text value | .comment value | .attribute _ value => value
      | .element .. | .document .. => s.joinTexts (s.preorder i) := by
  have hcontainer : (s.content i).value = none → s.text i = s.joinTexts (s.preorder i) := by
    intro hv
    rw [h.text_of_value hv, textBelow_eq]
  rcases hc : s.content i with value | value | ⟨name, value⟩ | _ | _
  · simp only [text, hc, Content.value]
  · simp only [text, hc, Content.value]
  · simp only [text, hc, Content.value]
  · exact hcontainer (hc ▸ rfl)
  · exact hcontainer (hc ▸ rfl)

end Notes

end Store

end PathFunctions
