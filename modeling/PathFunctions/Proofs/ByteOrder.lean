import Mathlib.Tactic.SplitIfs
import PathFunctions.Text.Offset

/-!
# The order of encoded texts

Texts are ordered by their characters, and comparing their UTF-8 bytes instead gives the same order
(`utf8Bytes_le_iff`): of two characters, the one with the lower number has the lower byte where
their encodings first part, and neither encoding is a part of the other.
-/

namespace PathFunctions.Text

/-- The bytes of a text in UTF-8. -/
def utf8Bytes (text : String) : List UInt8 := text.toUTF8.data.toList

theorem utf8Bytes_eq (text : String) :
    utf8Bytes text = text.toList.flatMap String.utf8EncodeChar := by
  obtain ⟨cs, rfl⟩ : ∃ cs, text = String.ofList cs := ⟨_, String.ofList_toList.symm⟩
  rw [utf8Bytes, String.toUTF8_eq_toByteArray, String.toList_ofList]
  exact List.toList_data_toByteArray

theorem utf8EncodeChar_append_lt {c d : Char} (h : c < d) (bs bs' : List UInt8) :
    String.utf8EncodeChar c ++ bs < String.utf8EncodeChar d ++ bs' := by
  have hlt : c.val.toNat < d.val.toNat := UInt32.lt_iff_toNat_lt.mp h
  have hmax : d.val.toNat < 0x110000 := by
    rcases d.valid with hd | hd
    · exact Nat.lt_trans hd (by decide)
    · exact hd.2
  -- Each byte is below 256, so what is left to compare are quotients and remainders by 64.
  simp only [String.utf8EncodeChar]
  split_ifs <;>
    simp only [List.cons_append, List.nil_append, List.cons_lt_cons_iff, UInt8.lt_iff_toNat_lt,
      ← UInt8.toNat_inj, UInt8.toNat_ofNat'] <;>
    simp (disch := omega) only [Nat.mod_eq_of_lt] <;>
    omega

theorem flatMap_utf8EncodeChar_lt : ∀ {cs ds : List Char}, cs < ds →
    cs.flatMap String.utf8EncodeChar < ds.flatMap String.utf8EncodeChar
  | [], [], h => absurd h (List.not_lt_nil _)
  | _ :: _, [], h => absurd h (List.not_lt_nil _)
  | [], d :: ds, _ => by
    obtain ⟨b, bs, hb⟩ := List.exists_cons_of_ne_nil (String.utf8EncodeChar_ne_nil (c := d))
    rw [List.flatMap_cons, hb]
    exact List.nil_lt_cons b _
  | c :: cs, d :: ds, h => by
    rw [List.flatMap_cons, List.flatMap_cons]
    rcases List.cons_lt_cons_iff.mp h with hlt | ⟨rfl, htail⟩
    · exact utf8EncodeChar_append_lt hlt _ _
    · exact List.append_left_lt (flatMap_utf8EncodeChar_lt htail)

theorem utf8Bytes_lt {text other : String} (h : text < other) :
    utf8Bytes text < utf8Bytes other := by
  rw [utf8Bytes_eq, utf8Bytes_eq]
  exact flatMap_utf8EncodeChar_lt h

theorem utf8Bytes_lt_iff {text other : String} :
    utf8Bytes text < utf8Bytes other ↔ text < other := by
  refine ⟨fun h => Decidable.byContradiction fun hnot => ?_, utf8Bytes_lt⟩
  by_cases hlt : other < text
  · exact List.lt_asymm h (utf8Bytes_lt hlt)
  · rw [String.le_antisymm hlt hnot] at h
    exact List.lt_irrefl _ h

theorem utf8Bytes_le_iff {text other : String} :
    utf8Bytes text ≤ utf8Bytes other ↔ text ≤ other := not_congr utf8Bytes_lt_iff

end PathFunctions.Text
