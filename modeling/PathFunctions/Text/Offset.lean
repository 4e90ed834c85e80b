/-!
# Offsets in encoded text

Positions in a text are counted in the bytes of its UTF-8 form, so a character past ASCII moves
them by two, three or four.
-/

namespace PathFunctions.Text

/-- The number of bytes of `cs` in UTF-8. -/
def utf8Length : List Char → Nat
  | [] => 0
  | c :: cs => c.utf8Size + utf8Length cs

theorem utf8Length_append :
    ∀ cs ds : List Char, utf8Length (cs ++ ds) = utf8Length cs + utf8Length ds
  | [], ds => by simp [utf8Length]
  | c :: cs, ds => by
    rw [List.cons_append, utf8Length, utf8Length, utf8Length_append cs ds, Nat.add_assoc]

theorem utf8ByteSize_ofList : ∀ cs : List Char, (String.ofList cs).utf8ByteSize = utf8Length cs
  | [] => rfl
  | c :: cs => by
    rw [String.ofList_cons, String.utf8ByteSize_append, utf8ByteSize_ofList cs, utf8Length,
      String.utf8ByteSize_singleton]

end PathFunctions.Text
