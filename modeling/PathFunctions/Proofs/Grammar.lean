import PathFunctions.Proofs.Numeral
import PathFunctions.Template.Parse

/-!
# The grammar of templates

A template is a sequence of tokens: a character that is no brace, a doubled brace, or a placeholder
between braces. A token carries all of its text, the spaces, leading zeros and specifier that have
no meaning included, so two token sequences with one text are the same (`spelling_injective`): no
token goes on past the point where another one with the same beginning ends
(`Token.text_append_inj`).
-/

namespace PathFunctions.Template

def spaces (n : Nat) : List Char := List.replicate n ' '

def sign (negative : Bool) : List Char := if negative then ['-'] else []

/-- A width as it is written: a comma, spaces, a minus sign or none, a numeral, spaces. -/
structure Width where
  lead : Nat
  negative : Bool
  numeral : Numeral
  trail : Nat

def Width.text (width : Width) : List Char :=
  ',' :: (spaces width.lead ++ (sign width.negative
    ++ (width.numeral.digits ++ spaces width.trail)))

def Width.alignment (width : Width) : Int :=
  if width.negative then -(width.numeral.value : Int) else width.numeral.value

def widthText : Option Width → List Char
  | none => []
  | some width => width.text

/-- A closing brace, or a colon, text without a closing brace and then one. -/
inductive Ending
  | brace
  | specifier (text : List Char) (noBrace : '}' ∉ text)

def Ending.text : Ending → List Char
  | brace => ['}']
  | specifier text _ => ':' :: (text ++ ['}'])

/-- A placeholder as it is written after its opening brace. -/
structure Field where
  index : Numeral
  trail : Nat
  width : Option Width
  ending : Ending

def Field.text (field : Field) : List Char :=
  field.index.digits ++ (spaces field.trail ++ (widthText field.width ++ field.ending.text))

/-- What a written placeholder stands for; without a width its alignment is 0. -/
def Field.placeholder (field : Field) : Placeholder :=
  ⟨field.index.value, (field.width.map Width.alignment).getD 0⟩

inductive Token
  | plain (c : Char) (notOpening : c ≠ '{') (notClosing : c ≠ '}')
  | openingBraces
  | closingBraces
  | braced (field : Field)

def Token.text : Token → List Char
  | .plain c _ _ => [c]
  | .openingBraces => ['{', '{']
  | .closingBraces => ['}', '}']
  | .braced field => '{' :: field.text

/-- What a token that starts at `position` stands for. -/
def Token.piece (position : Nat) : Token → Piece
  | .plain c _ _ => .char c
  | .openingBraces => .char '{'
  | .closingBraces => .char '}'
  | .braced field => .placeholder field.placeholder position

/-- The text of some tokens one after the other. -/
def spelling (tokens : List Token) : List Char := tokens.flatMap Token.text

/-- What some tokens stand for, the first of them starting at byte `position`. -/
def piecesFrom (position : Nat) : List Token → List Piece
  | [] => []
  | token :: tokens =>
    token.piece position :: piecesFrom (position + Text.utf8Length token.text) tokens

theorem spelling_cons (token : Token) (tokens : List Token) :
    spelling (token :: tokens) = token.text ++ spelling tokens := rfl

theorem spelling_append (tokens others : List Token) :
    spelling (tokens ++ others) = spelling tokens ++ spelling others := List.flatMap_append

theorem piecesFrom_append : ∀ (tokens others : List Token) (position : Nat),
    piecesFrom position (tokens ++ others) = piecesFrom position tokens
      ++ piecesFrom (position + Text.utf8Length (spelling tokens)) others
  | [], others, position => rfl
  | token :: tokens, others, position => by
    rw [List.cons_append, piecesFrom, piecesFrom, piecesFrom_append tokens others, spelling_cons,
      Text.utf8Length_append, Nat.add_assoc, List.cons_append]

section Stops

variable {p : Char → Bool}

theorem stop_spaces (hp : p ' ' = false) {rest : List Char} (hs : rest.takeWhile p = []) :
    ∀ n : Nat, (spaces n ++ rest).takeWhile p = []
  | 0 => hs
  | n + 1 => by simp [spaces, List.replicate_succ, hp]

theorem stop_numeral (hp : ∀ c : Char, c.isDigit → p c = false) (numeral : Numeral)
    (rest : List Char) : (numeral.digits ++ rest).takeWhile p = [] := by
  obtain ⟨c, cs, h⟩ := List.exists_cons_of_ne_nil numeral.ne_nil
  have hc := hp c (numeral.isDigit c (by rw [h]; exact List.mem_cons_self))
  simp [h, hc]

theorem stop_ending (hb : p '}' = false) (hc : p ':' = false) (ending : Ending)
    (rest : List Char) : (ending.text ++ rest).takeWhile p = [] := by
  cases ending <;> simp [Ending.text, hb, hc]

theorem stop_widthText (hp : p ',' = false) {rest : List Char} (hs : rest.takeWhile p = []) :
    ∀ width : Option Width, (widthText width ++ rest).takeWhile p = []
  | none => hs
  | some width => by simp [widthText, Width.text, hp]

end Stops

theorem mem_spaces {c : Char} {n : Nat} (h : c ∈ spaces n) : c = ' ' := List.eq_of_mem_replicate h

theorem ne_of_isDigit {c d : Char} (hd : d.isDigit = false) (hc : c.isDigit) : c ≠ d := by
  rintro rfl
  rw [hd] at hc
  cases hc

theorem Numeral.append_ne_cons {c : Char} (hc : c.isDigit = false) (numeral : Numeral)
    (rest cs : List Char) : numeral.digits ++ rest ≠ c :: cs := by
  obtain ⟨d, ds, hd⟩ := List.exists_cons_of_ne_nil numeral.ne_nil
  intro h
  rw [hd] at h
  have hdigit := numeral.isDigit d (by rw [hd]; exact List.mem_cons_self)
  exact ne_of_isDigit hc hdigit (List.cons.inj h).1

theorem Ending.append_ne_cons {c : Char} (hb : c ≠ '}') (hc : c ≠ ':') (ending : Ending)
    (rest cs : List Char) : ending.text ++ rest ≠ c :: cs := by
  intro h
  cases ending
  · exact hb (List.cons.inj h).1.symm
  · exact hc (List.cons.inj h).1.symm

theorem spaces_append_inj {n m : Nat} {rest rest' : List Char}
    (hs : rest.takeWhile (· = ' ') = []) (hs' : rest'.takeWhile (· = ' ') = [])
    (h : spaces n ++ rest = spaces m ++ rest') : n = m ∧ rest = rest' := by
  obtain ⟨hn, hr⟩ := append_inj_of_stop (fun c hc => decide_eq_true (mem_spaces hc))
    (fun c hc => decide_eq_true (mem_spaces hc)) hs hs' h
  have hlen := congrArg List.length hn
  simp only [spaces, List.length_replicate] at hlen
  exact ⟨hlen, hr⟩

theorem digits_append_inj {n m : Numeral} {rest rest' : List Char}
    (hs : rest.takeWhile Char.isDigit = []) (hs' : rest'.takeWhile Char.isDigit = [])
    (h : n.digits ++ rest = m.digits ++ rest') : n = m ∧ rest = rest' := by
  obtain ⟨hn, hr⟩ := append_inj_of_stop n.isDigit m.isDigit hs hs' h
  exact ⟨Numeral.ext hn, hr⟩

theorem stop_signed (negative : Bool) (numeral : Numeral) (rest : List Char) :
    (sign negative ++ (numeral.digits ++ rest)).takeWhile (· = ' ') = [] := by
  cases negative
  · exact stop_numeral (fun c hc => decide_eq_false (ne_of_isDigit rfl hc)) numeral rest
  · rfl

theorem sign_append_inj {a b : Bool} {n m : Numeral} {rest rest' : List Char}
    (h : sign a ++ (n.digits ++ rest) = sign b ++ (m.digits ++ rest')) :
    a = b ∧ n.digits ++ rest = m.digits ++ rest' := by
  cases a <;> cases b
  · exact ⟨rfl, h⟩
  · exact absurd h (n.append_ne_cons rfl _ _)
  · exact absurd h.symm (m.append_ne_cons rfl _ _)
  · exact ⟨rfl, List.cons.inj h |>.2⟩

theorem Width.text_append_inj {width other : Width} {rest rest' : List Char}
    (hs : rest.takeWhile (· = ' ') = []) (hs' : rest'.takeWhile (· = ' ') = [])
    (hd : rest.takeWhile Char.isDigit = []) (hd' : rest'.takeWhile Char.isDigit = [])
    (h : width.text ++ rest = other.text ++ rest') : width = other ∧ rest = rest' := by
  obtain ⟨lead, negative, numeral, trail⟩ := width
  obtain ⟨lead', negative', numeral', trail'⟩ := other
  simp only [Width.text, List.cons_append, List.append_assoc, List.cons.injEq, true_and] at h
  obtain ⟨rfl, hsigned⟩ := spaces_append_inj (stop_signed _ _ _) (stop_signed _ _ _) h
  obtain ⟨rfl, hdigits⟩ := sign_append_inj hsigned
  obtain ⟨rfl, htrail⟩ :=
    digits_append_inj (stop_spaces rfl hd _) (stop_spaces rfl hd' _) hdigits
  obtain ⟨rfl, hrest⟩ := spaces_append_inj hs hs' htrail
  exact ⟨rfl, hrest⟩

theorem Ending.text_append_inj {ending other : Ending} {rest rest' : List Char}
    (h : ending.text ++ rest = other.text ++ rest') : ending = other ∧ rest = rest' := by
  rcases ending with _ | ⟨text, hn⟩ <;> rcases other with _ | ⟨text', hn'⟩ <;>
    simp only [Ending.text, List.cons_append, List.nil_append, List.append_assoc,
      List.cons.injEq, Char.reduceEq, false_and, true_and] at h
  · exact ⟨rfl, h⟩
  · have hmem : ∀ {xs : List Char}, '}' ∉ xs → ∀ c ∈ xs, decide (c ≠ '}') = true :=
      fun hx c hc => decide_eq_true fun he => hx (he ▸ hc)
    obtain ⟨rfl, hbrace⟩ := append_inj_of_stop (hmem hn) (hmem hn') rfl rfl h
    exact ⟨rfl, (List.cons.inj hbrace).2⟩

theorem widthText_append_inj {width other : Option Width} {ending ending' : Ending}
    {rest rest' : List Char}
    (h : widthText width ++ (ending.text ++ rest) = widthText other ++ (ending'.text ++ rest')) :
    width = other ∧ ending.text ++ rest = ending'.text ++ rest' := by
  rcases width with _ | w <;> rcases other with _ | v
  · exact ⟨rfl, h⟩
  · exact absurd h (ending.append_ne_cons (by decide) (by decide) _ _)
  · exact absurd h.symm (ending'.append_ne_cons (by decide) (by decide) _ _)
  · obtain ⟨rfl, hending⟩ := Width.text_append_inj (stop_ending rfl rfl _ _)
      (stop_ending rfl rfl _ _) (stop_ending rfl rfl _ _) (stop_ending rfl rfl _ _) h
    exact ⟨rfl, hending⟩

theorem Field.text_append_inj {field other : Field} {rest rest' : List Char}
    (h : field.text ++ rest = other.text ++ rest') : field = other ∧ rest = rest' := by
  obtain ⟨index, trail, width, ending⟩ := field
  obtain ⟨index', trail', width', ending'⟩ := other
  have hw : ∀ {p : Char → Bool}, p '}' = false → p ':' = false → p ',' = false →
      ∀ (w : Option Width) (e : Ending) (xs : List Char),
        (widthText w ++ (e.text ++ xs)).takeWhile p = [] :=
    fun hb hc hcomma w e xs => stop_widthText hcomma (stop_ending hb hc e xs) w
  simp only [Field.text, List.append_assoc] at h
  obtain ⟨rfl, htrail⟩ := digits_append_inj (stop_spaces rfl (hw rfl rfl rfl _ _ _) _)
    (stop_spaces rfl (hw rfl rfl rfl _ _ _) _) h
  obtain ⟨rfl, hwidth⟩ := spaces_append_inj (hw rfl rfl rfl _ _ _) (hw rfl rfl rfl _ _ _) htrail
  obtain ⟨rfl, hending⟩ := widthText_append_inj hwidth
  obtain ⟨rfl, hrest⟩ := Ending.text_append_inj hending
  exact ⟨rfl, hrest⟩

theorem Field.text_ne_brace (field : Field) (rest cs : List Char) :
    field.text ++ rest ≠ '{' :: cs := by
  rw [Field.text, List.append_assoc]
  exact field.index.append_ne_cons rfl _ _

theorem Token.text_ne_nil (token : Token) : token.text ≠ [] := by
  cases token <;> simp [Token.text]

/-- Where a token ends and which one it is are settled by the text it starts. -/
theorem Token.text_append_inj {token other : Token} {rest rest' : List Char}
    (h : token.text ++ rest = other.text ++ rest') : token = other ∧ rest = rest' := by
  rcases token with ⟨c, ho, hc⟩ | _ | _ | field <;>
    rcases other with ⟨d, ho', hc'⟩ | _ | _ | field' <;>
    simp only [Token.text, List.cons_append, List.nil_append, List.cons.injEq, Char.reduceEq,
      false_and, true_and] at h
  · obtain ⟨rfl, rfl⟩ := h
    exact ⟨rfl, rfl⟩
  · exact absurd h.1 ho
  · exact absurd h.1 hc
  · exact absurd h.1 ho
  · exact absurd h.1.symm ho'
  · exact ⟨rfl, h⟩
  · exact absurd h.symm (field'.text_ne_brace _ _)
  · exact absurd h.1.symm hc'
  · exact ⟨rfl, h⟩
  · exact absurd h.1.symm ho'
  · exact absurd h (field.text_ne_brace _ _)
  · obtain ⟨rfl, rfl⟩ := Field.text_append_inj h
    exact ⟨rfl, rfl⟩

theorem spelling_injective : Function.Injective spelling
  | [], [], _ => rfl
  | [], token :: tokens, h => absurd (List.append_eq_nil_iff.mp h.symm).1 token.text_ne_nil
  | token :: tokens, [], h => absurd (List.append_eq_nil_iff.mp h).1 token.text_ne_nil
  | token :: tokens, other :: others, h => by
    obtain ⟨rfl, htail⟩ := Token.text_append_inj h
    rw [spelling_injective htail]

end PathFunctions.Template
