import PathFunctions.Text.Unprintable

/-!
# Quoted text

`quote` writes a text between double quotes so that any text can be shown on one line. The
characters with a short spelling, the quote and the backslash among them, are written by it; any
other character without a visible form is written by its number.
-/

namespace PathFunctions.Text

/-- A character's number between braces, in lower-case hexadecimal without leading zeros. -/
def spellNumber (c : Char) : List Char :=
  ['\\', 'u', '{'] ++ Nat.toDigits 16 c.toNat ++ ['}']

/-- What follows the backslash in a short spelling. -/
def shortForm? : Char → Option Char
  | '\x00' => some '0'
  | '\t' => some 't'
  | '\r' => some 'r'
  | '\n' => some 'n'
  | '"' => some '"'
  | '\\' => some '\\'
  | _ => none

/-- How `c` stands inside quoted text. -/
def spell (c : Char) : List Char :=
  match shortForm? c with
  | some form => ['\\', form]
  | none => if isUnprintable c then spellNumber c else [c]

def quote (text : String) : String :=
  String.ofList ('"' :: text.toList.flatMap spell ++ ['"'])

end PathFunctions.Text
