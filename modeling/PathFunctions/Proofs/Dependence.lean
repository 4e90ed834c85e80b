import PathFunctions.Node.TextNode
import PathFunctions.Proofs.Slots
import PathFunctions.Registry.Body
import PathFunctions.Store.Build
import PathFunctions.Store.Handle

/-!
# What `format` depends on

Calls whose templates have the same text and whose other arguments give the same texts have the
same outcome, even if their nodes are of different types (`format_depends_on_texts`). How the nodes
are divided into sequences leaves no trace in the texts (`valueTexts_nodes`).
-/

namespace PathFunctions

variable {M N : Type} [Node M] [Node N]

/-- Two calls of `format` both answer the same string or both fail with the same error. -/
def SameFormat (call : Call N) (other : Call M) : Prop :=
  ∃ outcome : Except CallError String,
    Body.format call = .done (outcome.map fun text => [.atomic (.string text)])
      ∧ Body.format other = .done (outcome.map fun text => [.atomic (.string text)])

section Texts

theorem sameFormat_of_texts {call : Call N} {other : Call M} {template : Argument N}
    {template' : Argument M} {args : List (Argument N)} {args' : List (Argument M)}
    (hcall : call.args = template :: args) (hother : other.args = template' :: args')
    (htemplate : template.text = template'.text) (hvalues : valueTexts args = valueTexts args') :
    SameFormat call other := by
  refine ⟨Template.substitute template.text (valueTexts args), ?_, ?_⟩
  · rw [Body.format, hcall]
    rfl
  · rw [Body.format, hother, htemplate, hvalues]
    rfl

theorem valueTexts_nodes : ∀ pieces : List (NodeSequence N),
    valueTexts (pieces.map .nodes) = (pieces.flatMap NodeSequence.toList).map Node.stringValue
  | [] => rfl
  | piece :: pieces => by
    rw [List.map_cons, valueTexts_cons, valueTexts_nodes pieces, List.flatMap_cons,
      List.map_append]
    rfl

/-- Between the same arguments, some may stand for others that give the same texts. -/
theorem valueTexts_exchange {some others : List (Argument N)}
    (h : valueTexts some = valueTexts others) (before after : List (Argument N)) :
    valueTexts (before ++ some ++ after) = valueTexts (before ++ others ++ after) := by
  rw [valueTexts_append, valueTexts_append, valueTexts_append, valueTexts_append, h]

theorem text_of_head? {sequence other : NodeSequence N}
    (h : sequence.toList.head? = other.toList.head?) :
    (Argument.nodes sequence).text = (Argument.nodes other).text := by
  rw [Argument.text, Argument.text, sequence.next_fst, other.next_fst, h]

end Texts

/-- Nothing of the nodes but their texts, nor how they are grouped, nor the directory or the
current node of the call makes a difference. So the nodes after the first may be changed in the
template, and after it sequences may be cut and joined, empty ones put in, and a single node
changed for a scalar of its text. -/
theorem format_depends_on_texts :
    (∀ (call : Call N) (other : Call M) template template' args args',
      call.args = template :: args → other.args = template' :: args' →
        template.text = template'.text → valueTexts args = valueTexts args' →
          SameFormat call other)
      ∧ (∀ (call other : Call N) sequence sequence' args,
        call.args = .nodes sequence :: args → other.args = .nodes sequence' :: args →
          sequence.toList.head? = sequence'.toList.head? → SameFormat call other)
      ∧ (∀ (call other : Call N) template before after sequence (pieces : List (NodeSequence N)),
        call.args = template :: (before ++ [.nodes sequence] ++ after) →
          other.args = template :: (before ++ pieces.map .nodes ++ after) →
            pieces.flatMap NodeSequence.toList = sequence.toList → SameFormat call other)
      ∧ (∀ (call other : Call N) template before after sequence,
        call.args = template :: (before ++ after) →
          other.args = template :: (before ++ [.nodes sequence] ++ after) →
            sequence.toList = [] → SameFormat call other)
      ∧ ∀ (call other : Call N) template before after sequence node value,
        call.args = template :: (before ++ [.nodes sequence] ++ after) →
          other.args = template :: (before ++ [.scalar value] ++ after) →
            sequence.toList = [node] →
              value = .string (Node.stringValue node) ∨ value = .untyped (Node.stringValue node) →
                SameFormat call other := by
  refine ⟨fun call other template template' args args' => sameFormat_of_texts,
    fun call other sequence sequence' args hcall hother hhead => ?_,
    fun call other template before after sequence pieces hcall hother hpieces => ?_,
    fun call other template before after sequence hcall hother hempty => ?_,
    fun call other template before after sequence node value hcall hother hnode hvalue => ?_⟩
  · exact sameFormat_of_texts hcall hother (text_of_head? hhead) rfl
  · refine sameFormat_of_texts hcall hother rfl (valueTexts_exchange ?_ before after)
    rw [valueTexts_nodes, hpieces, valueTexts_cons]
    exact List.append_nil _
  · refine sameFormat_of_texts hcall hother rfl ?_
    have hnone : valueTexts ([] : List (Argument N)) = valueTexts [.nodes sequence] := by
      rw [valueTexts_cons, Argument.texts, hempty]
      rfl
    rw [← valueTexts_exchange hnone, List.append_nil]
  · refine sameFormat_of_texts hcall hother rfl (valueTexts_exchange ?_ before after)
    have htexts : (Argument.nodes sequence).texts = [Node.stringValue node] := by
      rw [Argument.texts, hnode]
      rfl
    rw [valueTexts_cons, valueTexts_cons, htexts]
    rcases hvalue with rfl | rfl <;> rfl

/-- Nodes of a store, one of which is an element, and bare text nodes in other groups, with the
template in one argument taken from a node. -/
theorem format_depends_on_texts_two_types :
    let store := ((Store.empty.add (.text "a")).2.add (.element "e" none [] [0])).2
    let call : Call (Store.Handle store) :=
      ⟨⟨.mk fun _ => [], true⟩,
        [.scalar (.string "\x7b1\x7d, \x7b0\x7d"), .nodes (.all [⟨0⟩, ⟨1⟩])], some ⟨1⟩⟩
    let other : Call TextNode :=
      ⟨⟨.mk fun _ => [], false⟩,
        [.nodes (.all [⟨"\x7b1\x7d, \x7b0\x7d"⟩, ⟨"b"⟩]), .scalar (.untyped "a"), .nodes .empty,
          .nodes (.selected (· = ⟨"a"⟩) [⟨"b"⟩, ⟨"a"⟩])], none⟩
    SameFormat call other :=
  format_depends_on_texts.1 _ _ _ _ _ _ rfl rfl rfl (by decide +kernel)

end PathFunctions
