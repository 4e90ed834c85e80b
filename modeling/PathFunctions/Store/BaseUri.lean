import PathFunctions.Store.Basic

/-!
# Base URIs

A node without a URI of its own has that of its parent. Parents are younger than what they list,
so the climb goes up in number and ends.
-/

namespace PathFunctions.Store

def baseUri (s : Store) (i : Nat) : Option String :=
  match (s.content i).uri with
  | some uri => some uri
  | none =>
    match s.parent i with
    | some parent => if _h : i < parent ∧ parent < s.size then s.baseUri parent else none
    | none => none
termination_by s.size - i

end PathFunctions.Store
