import PathFunctions.Proofs.Numeral
import PathFunctions.Text.Quoted

/-!
# Quoted text is told apart

A quoted text settles the text, and also where the quote ends when more follows it
(`quote_append_inj`): no spelling of a character begins another one, and none begins with the
closing quotation mark.
-/

namespace PathFunctions.Text

section Hexadecimal

theorem digitChar_inj : ∀ n < 16, ∀ m < 16, Nat.digitChar n = Nat.digitChar m → n = m := by
  decide

theorem toDigits_ne_of_lt {n m : Nat} (hn : n < 16) (hm : ¬ m < 16) :
    Nat.toDigits 16 n ≠ Nat.toDigits 16 m := by
  rw [Nat.toDigits_of_lt_base hn, Nat.toDigits_of_base_le (by decide) (Nat.le_of_not_lt hm)]
  intro h
  exact absurd (List.append_eq_singleton_iff.mp h.symm) (by simp [Nat.toDigits_ne_nil])

theorem toDigits_inj {n m : Nat} (h : Nat.toDigits 16 n = Nat.toDigits 16 m) : n = m := by
  by_cases hn : n < 16 <;> by_cases hm : m < 16
  · rw [Nat.toDigits_of_lt_base hn, Nat.toDigits_of_lt_base hm] at h
    exact digitChar_inj n hn m hm (List.singleton_inj.mp h)
  · exact absurd h (toDigits_ne_of_lt hn hm)
  · exact absurd h.symm (toDigits_ne_of_lt hm hn)
  · rw [Nat.toDigits_of_base_le (by decide) (Nat.le_of_not_lt hn),
      Nat.toDigits_of_base_le (by decide) (Nat.le_of_not_lt hm)] at h
    obtain ⟨hinit, hlast⟩ := List.append_inj' h rfl
    have hquotient := toDigits_inj hinit
    have hremainder := digitChar_inj _ (Nat.mod_lt n (by decide)) _ (Nat.mod_lt m (by decide))
      (List.singleton_inj.mp hlast)
    omega

theorem ne_brace_of_mem_toDigits {n : Nat} {c : Char} (h : c ∈ Nat.toDigits 16 n) : c ≠ '}' := by
  by_cases hn : n < 16
  · rw [Nat.toDigits_of_lt_base hn, List.mem_singleton] at h
    rw [h]
    exact Nat.digitChar_ne '}' rfl
  · rw [Nat.toDigits_of_base_le (by decide) (Nat.le_of_not_lt hn), List.mem_append,
      List.mem_singleton] at h
    rcases h with h | rfl
    · exact ne_brace_of_mem_toDigits h
    · exact Nat.digitChar_ne '}' rfl

end Hexadecimal

section Spelling

variable {c d : Char} {rest rest' : List Char}

theorem spellNumber_append_inj (h : spellNumber c ++ rest = spellNumber d ++ rest') :
    c = d ∧ rest = rest' := by
  simp only [spellNumber, List.append_assoc, List.append_cancel_left_eq] at h
  have hmem : ∀ n, ∀ x ∈ Nat.toDigits 16 n, decide (x ≠ '}') = true :=
    fun n x hx => decide_eq_true (ne_brace_of_mem_toDigits hx)
  obtain ⟨hdigits, hrest⟩ := Template.append_inj_of_stop (hmem _) (hmem _) rfl rfl h
  exact ⟨Char.toNat_inj.mp (toDigits_inj hdigits), (List.cons.inj hrest).2⟩

/-- The character that a short spelling stands for. -/
def ofShortForm : Char → Char
  | '0' => '\x00'
  | 't' => '\t'
  | 'r' => '\r'
  | 'n' => '\n'
  | form => form

theorem ofShortForm_of_eq_some {form : Char} (h : shortForm? c = some form) :
    ofShortForm form = c := by
  unfold shortForm? at h
  split at h <;> cases h <;> rfl

theorem ne_u_of_shortForm {form : Char} (h : shortForm? c = some form) : form ≠ 'u' := by
  unfold shortForm? at h
  split at h <;> cases h <;> decide

/-- A character is spelt shortly, by its number, or by itself if it is neither a backslash nor a
quotation mark. -/
theorem spell_cases (c : Char) :
    (∃ form, shortForm? c = some form ∧ spell c = ['\\', form]) ∨ spell c = spellNumber c
      ∨ spell c = [c] ∧ c ≠ '\\' ∧ c ≠ '"' := by
  rcases hform : shortForm? c with _ | form
  · right
    have hself : c ≠ '\\' ∧ c ≠ '"' := by
      constructor <;> rintro rfl <;> cases hform
    by_cases hc : isUnprintable c
    · left
      simp only [spell, hform, hc, if_true]
    · right
      refine ⟨?_, hself⟩
      simp only [spell, hform, hc, Bool.false_eq_true, if_false]
  · left
    exact ⟨form, rfl, by simp only [spell, hform]⟩

theorem spell_append_ne_quote (c : Char) (rest rest' : List Char) :
    spell c ++ rest ≠ '"' :: rest' := by
  intro h
  rcases spell_cases c with ⟨form, -, hc⟩ | hc | ⟨hc, -, hquote⟩ <;> rw [hc] at h
  · cases h
  · cases h
  · exact hquote (List.cons.inj h).1

theorem spell_append_inj (h : spell c ++ rest = spell d ++ rest') : c = d ∧ rest = rest' := by
  rcases spell_cases c with ⟨form, hform, hc⟩ | hc | ⟨hc, hbackslash, -⟩ <;>
    rcases spell_cases d with ⟨form', hform', hd⟩ | hd | ⟨hd, hbackslash', -⟩ <;>
    rw [hc, hd] at h
  · simp only [List.cons_append, List.nil_append, List.cons.injEq, true_and] at h
    obtain ⟨rfl, hrest⟩ := h
    exact ⟨(ofShortForm_of_eq_some hform).symm.trans (ofShortForm_of_eq_some hform'), hrest⟩
  · exact absurd (List.cons.inj (List.cons.inj h).2).1 (ne_u_of_shortForm hform)
  · exact absurd (List.cons.inj h).1.symm hbackslash'
  · exact absurd (List.cons.inj (List.cons.inj h).2).1.symm (ne_u_of_shortForm hform')
  · exact spellNumber_append_inj h
  · exact absurd (List.cons.inj h).1.symm hbackslash'
  · exact absurd (List.cons.inj h).1 hbackslash
  · exact absurd (List.cons.inj h).1 hbackslash
  · exact List.cons.inj h

theorem spelled_append_inj : ∀ {cs ds : List Char},
    cs.flatMap spell ++ '"' :: rest = ds.flatMap spell ++ '"' :: rest' → cs = ds ∧ rest = rest'
  | [], [], h => ⟨rfl, (List.cons.inj h).2⟩
  | [], d :: ds, h => by
    rw [List.flatMap_cons, List.append_assoc] at h
    exact absurd h.symm (spell_append_ne_quote d _ _)
  | c :: cs, [], h => by
    rw [List.flatMap_cons, List.append_assoc] at h
    exact absurd h (spell_append_ne_quote c _ _)
  | c :: cs, d :: ds, h => by
    rw [List.flatMap_cons, List.flatMap_cons, List.append_assoc, List.append_assoc] at h
    obtain ⟨rfl, htail⟩ := spell_append_inj h
    obtain ⟨rfl, hrest⟩ := spelled_append_inj htail
    exact ⟨rfl, hrest⟩

theorem quote_append_inj {text other rest rest' : String}
    (h : quote text ++ rest = quote other ++ rest') : text = other ∧ rest = rest' := by
  have hlist := congrArg String.toList h
  simp only [quote, String.toList_append, String.toList_ofList, List.cons_append, List.append_assoc,
    List.nil_append, List.cons.injEq, true_and] at hlist
  obtain ⟨htext, hrest⟩ := spelled_append_inj hlist
  exact ⟨String.toList_inj.mp htext, String.toList_inj.mp hrest⟩

end Spelling

end PathFunctions.Text
