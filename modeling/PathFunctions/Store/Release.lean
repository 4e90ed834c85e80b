import PathFunctions.Store.Basic

/-!
# Releasing nodes

A node lives while it is held from outside or a living node lists it. A link to a parent keeps
nothing alive: `release` cuts the links to parents that no longer live.
-/

namespace PathFunctions.Store

/-- Marks what is listed by the marked nodes below `n`, from the youngest to the oldest. -/
def markListed (s : Store) : Nat → Array Bool → Array Bool
  | 0, marks => marks
  | n + 1, marks =>
    s.markListed n
      (if marks.getD n false then
        (s.content n).listed.foldl (fun marks child => marks.setIfInBounds child true) marks
      else marks)

/-- Which nodes live if those in `held` are held. -/
def living (s : Store) (held : List Nat) : Array Bool :=
  s.markListed s.size
    (held.foldl (fun marks i => marks.setIfInBounds i true) (Array.replicate s.size false))

def lives (s : Store) (held : List Nat) (i : Nat) : Bool := (s.living held).getD i false

def release (s : Store) (held : List Nat) : Store :=
  let marks := s.living held
  ⟨s.records.map fun record =>
    { record with parent := record.parent.filter fun parent => marks.getD parent false }⟩

theorem size_release (s : Store) (held : List Nat) : (s.release held).size = s.size := by
  simp [release, size]

theorem content_release (s : Store) (held : List Nat) (i : Nat) :
    (s.release held).content i = s.content i := by
  simp only [content, release, Array.getElem?_map]
  cases s.records[i]? <;> rfl

theorem parent_release (s : Store) (held : List Nat) (i : Nat) :
    (s.release held).parent i = (s.parent i).filter (s.lives held) := by
  simp only [parent, release, Array.getElem?_map]
  cases s.records[i]? <;> rfl

theorem noted_release (s : Store) (held : List Nat) (i : Nat) :
    (s.release held).noted i = s.noted i := by
  simp only [noted, release, Array.getElem?_map]
  cases s.records[i]? <;> rfl

end PathFunctions.Store
