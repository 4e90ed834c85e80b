import Mathlib.Order.Monotone.Basic
import PathFunctions.Call.Argument

/-!
# What sequences hand out

A read takes the first of the nodes still to come and leaves the others, so some reads leave what
is after as many nodes (`toList_afterReads`). The hint bounds their number in every state, and as a
read only passes unread nodes, its upper bound never grows (`antitone_upper`): a read may pass many
nodes that the test refuses, while the number of nodes still to come falls by one. Flattening
takes from each argument what reading it to its end would (`flatten_handed`).
-/

namespace PathFunctions

variable {N : Type}

/-- How a sequence is made of some nodes. -/
inductive Making (N : Type)
  | whole
  | filtered (keep : N → Bool)
  | empty

namespace Making

def sequence (source : List N) : Making N → NodeSequence N
  | whole => .all source
  | filtered keep => .selected keep source
  | empty => .empty

/-- The nodes to be handed out. -/
def selection (source : List N) : Making N → List N
  | whole => source
  | filtered keep => source.filter keep
  | empty => []

end Making

/-- There are at least and at most as many nodes as the hint says. -/
def SizeHint.Bounds (hint : SizeHint) (count : Nat) : Prop :=
  hint.lower ≤ count ∧ count ≤ hint.upper

namespace NodeSequence

/-- What some reads leave of a sequence. -/
def afterReads (sequence : NodeSequence N) : Nat → NodeSequence N
  | 0 => sequence
  | count + 1 => (sequence.afterReads count).next.2

/-- Read until it has no node, a sequence hands out these nodes. -/
inductive Delivers : NodeSequence N → List N → Prop
  | done {sequence : NodeSequence N} : sequence.next.1 = none → Delivers sequence []
  | more {sequence : NodeSequence N} {node : N} {nodes : List N} :
    sequence.next.1 = some node → Delivers sequence.next.2 nodes → Delivers sequence (node :: nodes)

section Reads

variable (sequence : NodeSequence N)

theorem toList_afterReads : ∀ count : Nat,
    (sequence.afterReads count).toList = sequence.toList.drop count
  | 0 => rfl
  | count + 1 => by
    rw [afterReads, toList_next_snd, toList_afterReads count, List.tail_drop]

theorem next_afterReads (count : Nat) :
    (sequence.afterReads count).next.1 = sequence.toList[count]? := by
  rw [next_fst, toList_afterReads, List.head?_drop]

theorem bounds_hint : sequence.hint.Bounds sequence.toList.length := by
  cases sequence with
  | all unread => exact ⟨Nat.le_refl _, Nat.le_refl _⟩
  | selected keep unread => exact ⟨Nat.zero_le _, List.length_filter_le keep unread⟩

theorem upper_next_le : sequence.next.2.hint.upper ≤ sequence.hint.upper := by
  cases sequence with
  | all unread => simp [next, hint]
  | selected keep unread =>
    have hpassed : (unread.dropWhile fun node => !keep node).length ≤ unread.length :=
      (List.dropWhile_suffix _).length_le
    simp only [next, hint, List.length_tail]
    omega

theorem antitone_upper : Antitone fun count => (sequence.afterReads count).hint.upper :=
  antitone_nat_of_succ_le fun count => (sequence.afterReads count).upper_next_le

theorem antitone_length : Antitone fun count => (sequence.afterReads count).toList.length :=
  antitone_nat_of_succ_le fun count => by
    rw [afterReads, toList_next_snd, List.length_tail]
    exact Nat.sub_le _ _

-- Two nodes are passed on the way to the first of two.
example : ((selected (· % 2 = 0) [1, 4, 6]).afterReads 1).hint = ⟨0, 1⟩ := by decide

theorem afterReads_all (source : List N) : ∀ count : Nat,
    (all source).afterReads count = all (source.drop count)
  | 0 => rfl
  | count + 1 => by
    rw [afterReads, afterReads_all source count, next, List.tail_drop]

end Reads

theorem delivers_toList : ∀ {nodes : List N} {sequence : NodeSequence N},
    sequence.toList = nodes → Delivers sequence nodes
  | [], sequence, h => .done (by rw [next_fst, h, List.head?_nil])
  | node :: nodes, sequence, h => by
    refine .more (by rw [next_fst, h, List.head?_cons]) (delivers_toList ?_)
    rw [toList_next_snd, h, List.tail_cons]

end NodeSequence

namespace Making

/-- A sequence made of some nodes after some reads. -/
def after (making : Making N) (source : List N) (count : Nat) : NodeSequence N :=
  (making.sequence source).afterReads count

variable (making : Making N) (source : List N) (count : Nat)

theorem toList_sequence : (making.sequence source).toList = making.selection source := by
  cases making <;> rfl

theorem toList_after :
    (making.after source count).toList = (making.selection source).drop count := by
  rw [after, NodeSequence.toList_afterReads, toList_sequence]

theorem next_after : (making.after source count).next.1 = (making.selection source)[count]? := by
  rw [after, NodeSequence.next_afterReads, toList_sequence]

end Making

/-- An argument as it is handed over: a scalar, or a sequence some of whose nodes may have been
read. -/
inductive Handed (N : Type)
  | scalar (value : Scalar)
  | nodes (making : Making N) (source : List N) (reads : Nat)

namespace Handed

def argument : Handed N → Argument N
  | scalar value => .scalar value
  | nodes making source reads => .nodes (making.after source reads)

/-- The items it stands for: the scalar, or the nodes that have not been read. -/
def items : Handed N → List (Item N)
  | scalar value => [.atomic value]
  | nodes making source reads => ((making.selection source).drop reads).map .node

theorem items_argument : ∀ handed : Handed N, handed.argument.items = handed.items
  | scalar _ => rfl
  | nodes making source reads => by
    rw [argument, Argument.items, making.toList_after, items]

end Handed

theorem flatten_handed (handed : List (Handed N)) :
    flatten (handed.map Handed.argument) = handed.flatMap Handed.items := by
  rw [flatten, List.flatMap_map]
  exact congrArg (handed.flatMap ·) (funext Handed.items_argument)

/-- However a sequence is made and however often it has been read, the next read gives the next of
its nodes, or none once they are over; the nodes still to come are those after as many as there
were reads, and reading on gives them all; its hint bounds their number, exactly if it is made of a
whole list; neither the number nor the upper bound ever grows; and flattening puts the nodes, and
only those, at the place of their argument. -/
theorem sequences_deliver_once :
    (∀ (making : Making N) (source : List N) (count : Nat),
      (making.after source count).next.1 = (making.selection source)[count]?
        ∧ (making.after source count).toList = (making.selection source).drop count
        ∧ (making.after source count).Delivers (making.after source count).toList
        ∧ (making.after source count).hint.Bounds (making.after source count).toList.length)
      ∧ (∀ (making : Making N) (source : List N),
        Antitone (fun count => (making.after source count).hint.upper)
          ∧ Antitone fun count => (making.after source count).toList.length)
      ∧ (∀ (source : List N) (count : Nat), (Making.whole.after source count).hint
        = ⟨source.length - count, source.length - count⟩)
      ∧ ∀ handed : List (Handed N),
        flatten (handed.map Handed.argument) = handed.flatMap Handed.items := by
  refine ⟨fun making source count => ⟨making.next_after source count,
    making.toList_after source count, NodeSequence.delivers_toList rfl,
    NodeSequence.bounds_hint _⟩, fun making source => ⟨?_, ?_⟩, fun source count => ?_,
    flatten_handed⟩
  · exact (making.sequence source).antitone_upper
  · exact (making.sequence source).antitone_length
  · rw [Making.after, Making.sequence, NodeSequence.afterReads_all, NodeSequence.hint,
      List.length_drop]

end PathFunctions
