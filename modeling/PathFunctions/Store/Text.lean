import PathFunctions.Store.Basic

/-!
# The text of a node

A text, a comment and an attribute stand for what they hold; an element and a document stand for
the texts below them, met from left to right along the children only. `read` notes down what it
found for a container, so that the descent is made once. Listed nodes are older than what lists
them, so the descent goes down in number.
-/

namespace PathFunctions.Store

/-- The texts at and below a node. -/
def textBelow (s : Store) (i : Nat) : String :=
  match s.content i with
  | .text value => value
  | content =>
    String.join (content.children.map fun child =>
      if _h : child < i then s.textBelow child else "")
termination_by i

/-- What a node stands for, from the note if there is one. -/
def text (s : Store) (i : Nat) : String :=
  match (s.content i).value with
  | some value => value
  | none => (s.noted i).getD (s.textBelow i)

def note (s : Store) (i : Nat) (text : String) : Store :=
  ⟨s.records.modify i fun record => { record with noted := some text }⟩

/-- Reads what a node stands for, and notes it down for a container. -/
def read (s : Store) (i : Nat) : String × Store :=
  (s.text i, if (s.content i).value.isNone then s.note i (s.text i) else s)

theorem size_note (s : Store) (i : Nat) (text : String) : (s.note i text).size = s.size := by
  simp [note, size]

theorem content_note (s : Store) (i : Nat) (text : String) (j : Nat) :
    (s.note i text).content j = s.content j := by
  simp only [content, note, Array.getElem?_modify]
  split
  · cases s.records[j]? <;> rfl
  · rfl

theorem parent_note (s : Store) (i : Nat) (text : String) (j : Nat) :
    (s.note i text).parent j = s.parent j := by
  simp only [parent, note, Array.getElem?_modify]
  split
  · cases s.records[j]? <;> rfl
  · rfl

theorem noted_note (s : Store) (i : Nat) (text : String) (j : Nat) :
    (s.note i text).noted j = if i = j ∧ j < s.size then some text else s.noted j := by
  simp only [noted, note, size, Array.getElem?_modify]
  by_cases hi : i = j
  · by_cases hj : j < s.records.size <;> simp [hi, hj]
  · simp [hi]

theorem size_read (s : Store) (i : Nat) : (s.read i).2.size = s.size := by
  simp only [read]
  split
  · exact size_note s i _
  · rfl

theorem content_read (s : Store) (i j : Nat) : (s.read i).2.content j = s.content j := by
  simp only [read]
  split
  · exact content_note s i _ j
  · rfl

theorem parent_read (s : Store) (i j : Nat) : (s.read i).2.parent j = s.parent j := by
  simp only [read]
  split
  · exact parent_note s i _ j
  · rfl

end PathFunctions.Store
