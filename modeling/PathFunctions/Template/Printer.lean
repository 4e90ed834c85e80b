import PathFunctions.Template.Parse

/-!
# Writing templates

Literal text is written with its braces doubled, a placeholder with its index and, unless it is
zero, its alignment, both in plain decimal. Scanning a written literal gives back its characters
(`scan_doubled`).
-/

namespace PathFunctions

namespace Template

def doubleBrace (c : Char) : List Char := if c = '{' ∨ c = '}' then [c, c] else [c]

def doubled (cs : List Char) : List Char := cs.flatMap doubleBrace

def printLiteral (text : String) : String := String.ofList (doubled text.toList)

end Template

def Placeholder.print (hole : Placeholder) : String :=
  "\x7b" ++ toString hole.index
    ++ (if hole.alignment = 0 then "" else "," ++ toString hole.alignment) ++ "\x7d"

def Segment.print : Segment → String
  | .literal text => Template.printLiteral text
  | .placeholder hole _ => hole.print

namespace Template

/-- A text that reads as some segments, wherever they stood before. -/
def print (segments : List Segment) : String := String.join (segments.map Segment.print)

theorem scan_plain {c : Char} (ho : c ≠ '{') (hc : c ≠ '}') (position : Nat) (cs : List Char) :
    scan position (c :: cs) = (scan (position + c.utf8Size) cs).map (.char c :: ·) := by
  rw [scan]
  all_goals simp_all

theorem doubled_cons (c : Char) (cs : List Char) :
    doubled (c :: cs) = doubleBrace c ++ doubled cs := rfl

theorem scan_doubleBrace (c : Char) (position : Nat) (cs : List Char) :
    scan position (doubleBrace c ++ cs)
      = (scan (position + Text.utf8Length (doubleBrace c)) cs).map (.char c :: ·) := by
  by_cases ho : c = '{'
  · subst ho
    rw [show doubleBrace '{' ++ cs = '{' :: '{' :: cs from rfl, scan]
    rfl
  · by_cases hc : c = '}'
    · subst hc
      rw [show doubleBrace '}' ++ cs = '}' :: '}' :: cs from rfl, scan]
      rfl
    · simp only [doubleBrace, ho, hc, or_self, if_false]
      exact scan_plain ho hc position cs

theorem scan_doubled (rest : List Char) : ∀ (cs : List Char) (position : Nat),
    scan position (doubled cs ++ rest)
      = (scan (position + Text.utf8Length (doubled cs)) rest).map (cs.map .char ++ ·)
  | [], position => by
    cases h : scan position rest <;> simp [doubled, Text.utf8Length, h, Except.map]
  | c :: cs, position => by
    rw [doubled_cons, List.append_assoc, scan_doubleBrace, scan_doubled rest cs,
      Text.utf8Length_append, Nat.add_assoc]
    cases scan (position + (Text.utf8Length (doubleBrace c) + Text.utf8Length (doubled cs))) rest
      <;> rfl

end Template

end PathFunctions
