import PathFunctions.Template.Placeholder
import PathFunctions.Text.Offset

/-!
# Reading templates

`scan` cuts a text into pieces: single characters, where a doubled brace stands for one brace, and
placeholders. It stops at the first brace that belongs to neither and reports where that is.
`mergeRuns` then joins neighbouring characters into literals that are as long as possible and never
empty.
-/

namespace PathFunctions

namespace Template

inductive Piece
  | char (c : Char)
  | placeholder (hole : Placeholder) (position : Nat)
  deriving DecidableEq

/-- The pieces of a text that starts at `position`, or where it is at fault. -/
def scan (position : Nat) : List Char → Except (Nat × TemplateFault) (List Piece)
  | [] => .ok []
  | '{' :: '{' :: cs => (scan (position + 2) cs).map (.char '{' :: ·)
  | '{' :: cs =>
    match h : readPlaceholder cs with
    | .error fault => .error (position, fault)
    | .ok (hole, rest) =>
      have := readPlaceholder_length h
      (scan (position + 1 + (Text.utf8Length cs - Text.utf8Length rest)) rest).map
        (.placeholder hole position :: ·)
  | '}' :: '}' :: cs => (scan (position + 2) cs).map (.char '}' :: ·)
  | '}' :: _ => .error (position, .unmatchedClosingBrace)
  | c :: cs => (scan (position + c.utf8Size) cs).map (.char c :: ·)
termination_by cs => cs.length

/-- The literal of a run of characters, given in reverse; an empty run has none. -/
def literalOf (run : List Char) : List Segment :=
  if run.isEmpty then [] else [.literal (String.ofList run.reverse)]

/-- The segments of some pieces that come after a run of characters, given in reverse. -/
def mergeRuns (run : List Char) : List Piece → List Segment
  | [] => literalOf run
  | .char c :: pieces => mergeRuns (c :: run) pieces
  | .placeholder hole position :: pieces =>
    literalOf run ++ .placeholder hole position :: mergeRuns [] pieces

def parse (source : String) : Except CallError Template :=
  match scan 0 source.toList with
  | .ok pieces => .ok ⟨source, mergeRuns [] pieces⟩
  | .error (position, fault) => .error (.formatSyntax source position fault)

/-- Whether two texts read as equal templates or fail with equal errors. -/
def parsesAlike (a b : String) : Bool :=
  match parse a, parse b with
  | .ok s, .ok t => s = t
  | .error d, .error e => d = e
  | _, _ => false

end Template

end PathFunctions
