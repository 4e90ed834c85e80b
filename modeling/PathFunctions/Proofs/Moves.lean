import PathFunctions.Proofs.Liveness
import PathFunctions.Store.Text

/-!
# How stores change

A store grows: nodes are built around nodes that are held, other nodes are held while the same ones
live, and texts are read. And it releases nodes. Both keep a store sound: nodes are younger than
what they list, and the parent of a node is the one built last among those that list it, if that
one lives (`Moves.sound`). Neither changes what a node is made of (`Moves.content_eq`), and nothing
dies while a store grows (`Grows.alive_iff`).
-/

namespace PathFunctions.Store

/-- The nodes that list `n`. -/
def listers (s : Store) (n : Nat) : Set Nat := {p | n ∈ (s.content p).listed}

structure Sound (s : Store) (held : Set Nat) : Prop where
  layered : s.Layered
  held_lt : ∀ i ∈ held, i < s.size
  parent_iff : ∀ n p, s.parent n = some p ↔ IsGreatest (s.listers n) p ∧ Alive s held p

theorem lt_size_of_listed {s : Store} {p i : Nat} (h : i ∈ (s.content p).listed) : p < s.size := by
  by_contra hp
  have hnone : s.records[p]? = none := Array.getElem?_eq_none (Nat.le_of_not_lt hp)
  rw [content, hnone] at h
  cases h

section Sound

variable {s : Store} {held kept : Set Nat}

theorem Sound.alive_lt (h : Sound s held) {i : Nat} (hi : Alive s held i) : i < s.size :=
  hi.lt_size h.layered h.held_lt

/-- Soundness speaks of what nodes are made of, of their parents and of which of them live. -/
theorem Sound.congr {t : Store} (h : Sound s held) (hsize : t.size = s.size)
    (hcontent : ∀ i, t.content i = s.content i) (hheld : ∀ i ∈ kept, i < s.size)
    (hparent : ∀ n p, t.parent n = some p ↔ s.parent n = some p ∧ Alive s kept p)
    (hkept : ∀ i, Alive s kept i → Alive s held i) : Sound t kept where
  layered p i hi := h.layered p i (hcontent p ▸ hi)
  held_lt i hi := hsize ▸ hheld i hi
  parent_iff n p := by
    have hlisters : t.listers n = s.listers n := by
      simp only [listers, hcontent]
    rw [hparent, h.parent_iff, hlisters, alive_congr hcontent, and_assoc]
    exact and_congr_right' ⟨And.right, fun hp => ⟨hkept p hp, hp⟩⟩

theorem sound_empty : Sound empty ∅ where
  layered p i hi := absurd (lt_size_of_listed hi) (Nat.not_lt_zero p)
  held_lt i hi := absurd hi (Set.notMem_empty i)
  parent_iff n p := by
    constructor
    · intro hp
      cases hp
    · rintro ⟨⟨hp, -⟩, -⟩
      exact absurd (lt_size_of_listed hp) (Nat.not_lt_zero p)

theorem mem_listers_add {content : Content} {n p : Nat} :
    p ∈ (s.add content).2.listers n ↔ p = s.size ∧ n ∈ content.listed ∨ p ∈ s.listers n := by
  simp only [listers, Set.mem_ofPred_eq, content_add]
  by_cases hp : p = s.size
  · have hnone : n ∉ (s.content p).listed := fun hn => absurd (lt_size_of_listed hn) (by omega)
    rw [if_pos hp, or_iff_left hnone, and_iff_right hp]
  · rw [if_neg hp, or_iff_right fun h => hp h.1]

theorem Sound.alive_add (h : Sound s held) {content : Content}
    (hlisted : ∀ i ∈ content.listed, i ∈ held) {p : Nat} :
    Alive (s.add content).2 (insert s.size held) p ↔ p = s.size ∨ Alive s held p := by
  constructor
  · intro hp
    induction hp with
    | held hi => exact hi.imp_right .held
    | @listed p i _ hi ih =>
      rw [content_add] at hi
      split at hi
      · exact .inr (.held (hlisted i hi))
      · rename_i hne
        exact .inr ((ih.resolve_left hne).listed hi)
  · rintro (rfl | hp)
    · exact .held (Set.mem_insert _ _)
    · induction hp with
      | held hi => exact .held (Set.mem_insert_of_mem _ hi)
      | listed hp hi ih =>
        refine ih.listed ?_
        rwa [content_add, if_neg (h.alive_lt hp).ne]

theorem Sound.add (h : Sound s held) {content : Content}
    (hlisted : ∀ i ∈ content.listed, i ∈ held) :
    Sound (s.add content).2 (insert s.size held) where
  layered p i hi := by
    rw [content_add] at hi
    split at hi
    · rename_i hp
      exact hp ▸ h.held_lt i (hlisted i hi)
    · exact h.layered p i hi
  held_lt i hi := by
    rw [size_add]
    rcases hi with rfl | hi
    · exact Nat.lt_succ_self _
    · exact (h.held_lt i hi).trans (Nat.lt_succ_self _)
  parent_iff n p := by
    have hold : ∀ {q}, q ∈ s.listers n → q < s.size := lt_size_of_listed
    rw [parent_add, h.alive_add hlisted]
    by_cases hn : n ∈ content.listed
    · -- The new node is younger than all that listed `n` before.
      have hlt := h.held_lt n (hlisted n hn)
      rw [if_pos ⟨hn, by omega⟩, Option.some.injEq]
      constructor
      · rintro rfl
        refine ⟨⟨mem_listers_add.mpr (.inl ⟨rfl, hn⟩), fun q hq => ?_⟩, .inl rfl⟩
        rcases mem_listers_add.mp hq with ⟨rfl, -⟩ | hq
        · exact le_rfl
        · exact (hold hq).le
      · rintro ⟨⟨hp, hmax⟩, -⟩
        have hle := hmax (mem_listers_add.mpr (.inl ⟨rfl, hn⟩))
        rcases mem_listers_add.mp hp with ⟨rfl, -⟩ | hp
        · rfl
        · exact absurd (hold hp) (by omega)
    · have hlisters : (s.add content).2.listers n = s.listers n := by
        ext q
        rw [mem_listers_add]
        simp [hn]
      rw [if_neg fun hc => hn hc.1, h.parent_iff, hlisters]
      exact and_congr_right fun hp => (or_iff_right (hold hp.1).ne).symm

/-- What is held may change as long as the same nodes live by it. -/
theorem Sound.hold (h : Sound s held) (hkept : ∀ i ∈ kept, Alive s held i)
    (hheld : ∀ i ∈ held, Alive s kept i) : Sound s kept := by
  refine h.congr rfl (fun _ => rfl) (fun i hi => h.alive_lt (hkept i hi)) (fun n p => ?_)
    fun i => Alive.of_alive hkept
  exact ⟨fun hp => ⟨hp, ((h.parent_iff n p).mp hp).2.of_alive hheld⟩, And.left⟩

theorem Sound.read (h : Sound s held) (i : Nat) : Sound (s.read i).2 held := by
  refine h.congr (size_read s i) (content_read s i) h.held_lt (fun n p => ?_) fun _ => id
  rw [parent_read]
  exact ⟨fun hp => ⟨hp, ((h.parent_iff n p).mp hp).2⟩, And.left⟩

theorem Sound.release (h : Sound s held) {kept : List Nat} (hkept : ∀ i ∈ kept, Alive s held i) :
    Sound (s.release kept) {i | i ∈ kept} := by
  have hlt : ∀ i ∈ kept, i < s.size := fun i hi => h.alive_lt (hkept i hi)
  refine h.congr (size_release s kept) (content_release s kept) hlt (fun n p => ?_)
    fun i => Alive.of_alive hkept
  rw [parent_release, Option.filter_eq_some_iff, lives_iff h.layered hlt]

end Sound

/-- A store grows out of another, and what is held of it out of what is held of the other. -/
inductive Grows (s₀ : Store) (held₀ : Set Nat) : Store → Set Nat → Prop
  | start : Grows s₀ held₀ s₀ held₀
  | add {s : Store} {held : Set Nat} {content : Content} :
      Grows s₀ held₀ s held → (∀ i ∈ content.listed, i ∈ held) →
        Grows s₀ held₀ (s.add content).2 (insert s.size held)
  | hold {s : Store} {held kept : Set Nat} :
      Grows s₀ held₀ s held → (∀ i ∈ kept, Alive s held i) → (∀ i ∈ held, Alive s kept i) →
        Grows s₀ held₀ s kept
  | read {s : Store} {held : Set Nat} (i : Nat) :
      Grows s₀ held₀ s held → Grows s₀ held₀ (s.read i).2 held

inductive Moves (s₀ : Store) (held₀ : Set Nat) : Store → Set Nat → Prop
  | start : Moves s₀ held₀ s₀ held₀
  | grow {s t : Store} {held kept : Set Nat} :
      Moves s₀ held₀ s held → Grows s held t kept → Moves s₀ held₀ t kept
  | release {s : Store} {held : Set Nat} {kept : List Nat} :
      Moves s₀ held₀ s held → (∀ i ∈ kept, Alive s held i) →
        Moves s₀ held₀ (s.release kept) {i | i ∈ kept}

variable {s t : Store} {held kept : Set Nat}

section Growth

theorem Grows.sound (hs : Sound s held) (h : Grows s held t kept) : Sound t kept := by
  induction h with
  | start => exact hs
  | add _ hlisted ih => exact ih.add hlisted
  | hold _ hkept hheld ih => exact ih.hold hkept hheld
  | read i _ ih => exact ih.read i

theorem Grows.size_le (h : Grows s held t kept) : s.size ≤ t.size := by
  induction h with
  | start => exact le_rfl
  | add _ _ ih => exact ih.trans (size_add .. ▸ Nat.le_succ _)
  | hold _ _ _ ih => exact ih
  | read i _ ih => exact ih.trans (size_read _ i).ge

theorem Grows.content_eq (h : Grows s held t kept) {i : Nat} (hi : i < s.size) :
    t.content i = s.content i := by
  induction h with
  | start => rfl
  | add h _ ih => rw [content_add, if_neg (hi.trans_le h.size_le).ne, ih]
  | hold _ _ _ ih => exact ih
  | read j _ ih => rw [content_read, ih]

end Growth

section Moves

theorem Moves.sound (hs : Sound s held) (h : Moves s held t kept) : Sound t kept := by
  induction h with
  | start => exact hs
  | grow _ hg ih => exact hg.sound ih
  | release _ hkept ih => exact ih.release hkept

theorem Moves.trans {u : Store} {last : Set Nat} (h : Moves s held t kept)
    (h' : Moves t kept u last) : Moves s held u last := by
  induction h' with
  | start => exact h
  | grow _ hg ih => exact ih.grow hg
  | release _ hkept ih => exact ih.release hkept

theorem Moves.size_le (h : Moves s held t kept) : s.size ≤ t.size := by
  induction h with
  | start => exact le_rfl
  | grow _ hg ih => exact ih.trans hg.size_le
  | release _ _ ih => exact ih.trans (size_release ..).ge

theorem Moves.content_eq (h : Moves s held t kept) {i : Nat} (hi : i < s.size) :
    t.content i = s.content i := by
  induction h with
  | start => rfl
  | grow h hg ih => rw [hg.content_eq (hi.trans_le h.size_le), ih]
  | release _ _ ih => rw [content_release, ih]

end Moves

end PathFunctions.Store
