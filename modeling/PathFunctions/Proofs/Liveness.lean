import Mathlib.Data.Set.Insert
import Mathlib.Order.Bounds.Basic
import PathFunctions.Store.Build
import PathFunctions.Store.Release

/-!
# Which nodes live

A node lives if it is held or a living node lists it. Marking from the youngest node to the oldest
finds exactly the living ones (`lives_iff`): when a node is passed, everything that can list it has
been passed before, so its mark is settled.
-/

namespace PathFunctions.Store

inductive Alive (s : Store) (held : Set Nat) : Nat → Prop
  | held {i : Nat} : i ∈ held → Alive s held i
  | listed {p i : Nat} : Alive s held p → i ∈ (s.content p).listed → Alive s held i

/-- Every node is younger than what it lists. -/
def Layered (s : Store) : Prop := ∀ p, ∀ i ∈ (s.content p).listed, i < p

section Alive

variable {s : Store} {held kept : Set Nat}

theorem Alive.of_alive (h : ∀ i ∈ held, Alive s kept i) {i : Nat} (hi : Alive s held i) :
    Alive s kept i := by
  induction hi with
  | held hi => exact h _ hi
  | listed _ hi ih => exact ih.listed hi

theorem Alive.mono (h : held ⊆ kept) {i : Nat} (hi : Alive s held i) : Alive s kept i :=
  hi.of_alive fun _ hj => .held (h hj)

theorem Alive.lt_size (hs : s.Layered) (hheld : ∀ i ∈ held, i < s.size) {i : Nat}
    (hi : Alive s held i) : i < s.size := by
  induction hi with
  | held hi => exact hheld _ hi
  | listed _ hi ih => exact (hs _ _ hi).trans ih

theorem alive_congr {t : Store} (h : ∀ i, t.content i = s.content i) {i : Nat} :
    Alive t held i ↔ Alive s held i := by
  constructor
  · intro hi
    induction hi with
    | held hi => exact .held hi
    | listed _ hi ih => exact ih.listed (h _ ▸ hi)
  · intro hi
    induction hi with
    | held hi => exact .held hi
    | listed _ hi ih => exact ih.listed ((h _).symm ▸ hi)

end Alive

section Marks

def marked (marks : Array Bool) : Set Nat := {i | marks.getD i false = true}

theorem mem_marked_set {marks : Array Bool} {c i : Nat} (hc : c < marks.size) :
    i ∈ marked (marks.setIfInBounds c true) ↔ i = c ∨ i ∈ marked marks := by
  simp only [marked, Set.mem_ofPred_eq, Array.getD_eq_getD_getElem?, Array.getElem?_setIfInBounds]
  by_cases h : c = i
  · simp [← h, hc]
  · simp [h, Ne.symm h]

theorem size_foldl_mark : ∀ (is : List Nat) (marks : Array Bool),
    (is.foldl (fun marks i => marks.setIfInBounds i true) marks).size = marks.size
  | [], _ => rfl
  | i :: is, marks => by
    rw [List.foldl_cons, size_foldl_mark is, Array.size_setIfInBounds]

theorem mem_marked_foldl {i : Nat} : ∀ {is : List Nat} {marks : Array Bool},
    (∀ c ∈ is, c < marks.size) →
      (i ∈ marked (is.foldl (fun marks i => marks.setIfInBounds i true) marks)
        ↔ i ∈ is ∨ i ∈ marked marks)
  | [], _, _ => by simp
  | c :: is, marks, h => by
    have hrest : ∀ d ∈ is, d < (marks.setIfInBounds c true).size := by
      intro d hd
      rw [Array.size_setIfInBounds]
      exact h d (List.mem_cons_of_mem _ hd)
    rw [List.foldl_cons, mem_marked_foldl hrest, mem_marked_set (h c List.mem_cons_self),
      List.mem_cons]
    tauto

/-- If nothing is missing among what the nodes from `n` on list, what is marked in the end is what
lives by the marks. -/
theorem mem_marked_markListed {s : Store} (hs : s.Layered) {i : Nat} :
    ∀ {n : Nat} {marks : Array Bool}, n ≤ marks.size →
      (∀ p, n ≤ p → p ∈ marked marks → ∀ c ∈ (s.content p).listed, c ∈ marked marks) →
        (i ∈ marked (s.markListed n marks) ↔ Alive s (marked marks) i)
  | 0, marks, _, hclosed => by
    refine ⟨fun hi => .held hi, fun hi => ?_⟩
    induction hi with
    | held hi => exact hi
    | listed _ hi ih => exact hclosed _ (Nat.zero_le _) ih _ hi
  | n + 1, marks, hn, hclosed => by
    rw [markListed]
    split
    · rename_i hmark
      have hlt : ∀ c ∈ (s.content n).listed, c < marks.size := fun c hc =>
        (hs n c hc).trans (by omega)
      have hmem : ∀ c, _ ↔ _ := fun c => mem_marked_foldl (i := c) hlt
      rw [mem_marked_markListed hs (by rw [size_foldl_mark]; omega)]
      · constructor
        · refine Alive.of_alive fun c hc => ?_
          rcases (hmem c).mp hc with hc | hc
          · exact (Alive.held hmark).listed hc
          · exact .held hc
        · exact Alive.mono fun c hc => (hmem c).mpr (.inr hc)
      · intro p hp hpm c hc
        rw [hmem] at hpm ⊢
        rcases hpm with hpm | hpm
        · have := hs n p hpm
          omega
        · rcases Nat.eq_or_lt_of_le hp with rfl | hp
          · exact .inl hc
          · exact .inr (hclosed p hp hpm c hc)
    · rename_i hmark
      refine mem_marked_markListed hs (by omega) fun p hp hpm => ?_
      rcases Nat.eq_or_lt_of_le hp with rfl | hp
      · exact absurd hpm hmark
      · exact hclosed p hp hpm

end Marks

theorem lives_iff {s : Store} (hs : s.Layered) {held : List Nat} (h : ∀ i ∈ held, i < s.size)
    {i : Nat} : s.lives held i = true ↔ Alive s {j | j ∈ held} i := by
  have hsize : (Array.replicate s.size false).size = s.size := Array.size_replicate
  have hstart : ∀ c, c ∈ marked (held.foldl (fun marks i => marks.setIfInBounds i true)
      (Array.replicate s.size false)) ↔ c ∈ held := by
    intro c
    have hnone : c ∉ marked (Array.replicate s.size false) := by
      simp only [marked, Set.mem_ofPred_eq, Array.getD_eq_getD_getElem?, Array.getElem?_replicate]
      split <;> simp
    rw [mem_marked_foldl (by rwa [hsize]), or_iff_left hnone]
  have hmarks : marked (held.foldl (fun marks i => marks.setIfInBounds i true)
      (Array.replicate s.size false)) = {j | j ∈ held} := Set.ext hstart
  rw [← hmarks]
  refine mem_marked_markListed hs (by rw [size_foldl_mark, hsize]) fun p hp hpm => ?_
  have := h p ((hstart p).mp hpm)
  omega

end PathFunctions.Store
