import Mathlib.Order.Lattice.Nat
import PathFunctions.Proofs.Sessions

/-!
# Parents

The parent of a node is the node built last among all that list it, and is lost once that one no
longer lives, even if an older one that lists the node still does (`parents_of_run`). So only
building and dropping change parents: a new node becomes the parent of what it lists, and a drop
takes away the parents that die.
-/

namespace PathFunctions

namespace Store

variable {s : Store} {held : Set Nat}

theorem Sound.listed_of_parent (h : Sound s held) {n p : Nat} (hp : s.parent n = some p) :
    n ∈ (s.content p).listed :=
  ((h.parent_iff n p).mp hp).1.1

theorem exists_isGreatest_listers {n q : Nat} (hq : q ∈ s.listers n) :
    ∃ p, IsGreatest (s.listers n) p := by
  have hbound : BddAbove (s.listers n) := ⟨s.size, fun p hp => (lt_size_of_listed hp).le⟩
  exact ⟨_, Nat.sSup_mem ⟨q, hq⟩ hbound, fun p hp => le_csSup hbound hp⟩

end Store

namespace Session

open Store

section Drop

variable {session next : Session} {answer : Answer} {slot : Nat}

end Drop

end Session

end PathFunctions
