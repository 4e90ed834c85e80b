import PathFunctions.Store.Basic

/-!
# Building nodes

A node is built by pushing its record and making it the parent of each node it lists. Nothing else
changes: `content_add` and `parent_add` say what every node is made of and which parent it has
afterwards, and `noted_add` that no text is noted down or lost.
-/

namespace PathFunctions.Store

def adopt (s : Store) (parent child : Nat) : Store :=
  ⟨s.records.modify child fun record => { record with parent := some parent }⟩

def adoptAll (s : Store) (parent : Nat) (children : List Nat) : Store :=
  children.foldl (fun s child => s.adopt parent child) s

def push (s : Store) (content : Content) : Store := ⟨s.records.push ⟨content, none, none⟩⟩

/-- Builds a node, which becomes the parent of each node it lists. -/
def add (s : Store) (content : Content) : Nat × Store :=
  (s.size, (s.push content).adoptAll s.size content.listed)

theorem size_adopt (s : Store) (p c : Nat) : (s.adopt p c).size = s.size := by
  simp [adopt, size]

theorem content_adopt (s : Store) (p c i : Nat) : (s.adopt p c).content i = s.content i := by
  simp only [content, adopt, Array.getElem?_modify]
  split
  · cases s.records[i]? <;> rfl
  · rfl

theorem parent_adopt (s : Store) (p c i : Nat) :
    (s.adopt p c).parent i = if c = i ∧ i < s.size then some p else s.parent i := by
  simp only [parent, adopt, size, Array.getElem?_modify]
  by_cases hc : c = i
  · by_cases hi : i < s.records.size
    · simp [hc, hi]
    · simp [hc, hi]
  · simp [hc]

theorem noted_adopt (s : Store) (p c i : Nat) : (s.adopt p c).noted i = s.noted i := by
  simp only [noted, adopt, Array.getElem?_modify]
  split
  · cases s.records[i]? <;> rfl
  · rfl

theorem size_adoptAll (p : Nat) :
    ∀ (cs : List Nat) (s : Store), (s.adoptAll p cs).size = s.size
  | [], _ => rfl
  | c :: cs, s => (size_adoptAll p cs (s.adopt p c)).trans (size_adopt s p c)

theorem content_adoptAll (p i : Nat) :
    ∀ (cs : List Nat) (s : Store), (s.adoptAll p cs).content i = s.content i
  | [], _ => rfl
  | c :: cs, s => (content_adoptAll p i cs (s.adopt p c)).trans (content_adopt s p c i)

theorem parent_adoptAll (p i : Nat) :
    ∀ (cs : List Nat) (s : Store),
      (s.adoptAll p cs).parent i = if i ∈ cs ∧ i < s.size then some p else s.parent i
  | [], _ => by simp [adoptAll]
  | c :: cs, s => by
    have h := parent_adoptAll p i cs (s.adopt p c)
    rw [parent_adopt, size_adopt] at h
    rw [show s.adoptAll p (c :: cs) = (s.adopt p c).adoptAll p cs from rfl, h]
    by_cases hc : i = c
    · by_cases hi : i < s.size <;> simp [hc.symm, hi]
    · simp [hc, Ne.symm hc]

theorem noted_adoptAll (p i : Nat) :
    ∀ (cs : List Nat) (s : Store), (s.adoptAll p cs).noted i = s.noted i
  | [], _ => rfl
  | c :: cs, s => (noted_adoptAll p i cs (s.adopt p c)).trans (noted_adopt s p c i)

theorem size_push (s : Store) (content : Content) : (s.push content).size = s.size + 1 := by
  simp [push, size]

theorem content_push (s : Store) (content : Content) (i : Nat) :
    (s.push content).content i = if i = s.size then content else s.content i := by
  simp only [Store.content, push, size, Array.getElem?_push]
  by_cases h : i = s.records.size <;> simp [h]

theorem parent_push (s : Store) (content : Content) (i : Nat) :
    (s.push content).parent i = s.parent i := by
  simp only [parent, push, Array.getElem?_push]
  split
  · rename_i h
    simp [h]
  · rfl

theorem noted_push (s : Store) (content : Content) (i : Nat) :
    (s.push content).noted i = s.noted i := by
  simp only [noted, push, Array.getElem?_push]
  split
  · rename_i h
    simp [h]
  · rfl

theorem size_add (s : Store) (content : Content) : (s.add content).2.size = s.size + 1 := by
  rw [add, size_adoptAll, size_push]

/-- Building a node changes what no other is made of. -/
theorem content_add (s : Store) (content : Content) (i : Nat) :
    (s.add content).2.content i = if i = s.size then content else s.content i := by
  rw [add, content_adoptAll, content_push]

/-- A node becomes the parent of what it lists and of nothing else. -/
theorem parent_add (s : Store) (content : Content) (i : Nat) :
    (s.add content).2.parent i
      = if i ∈ content.listed ∧ i < s.size + 1 then some s.size else s.parent i := by
  rw [add, parent_adoptAll, parent_push, size_push]

theorem noted_add (s : Store) (content : Content) (i : Nat) :
    (s.add content).2.noted i = s.noted i := by
  rw [add, noted_adoptAll, noted_push]

end PathFunctions.Store
