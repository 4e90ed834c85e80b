import PathFunctions.Text.Description

/-!
# Node sequences

A sequence hands out nodes one at a time and in order, each once. It either hands out all of a
list or skips the nodes a test refuses; what it skips it passes only on the way to the next node.
Its hint bounds the number of nodes still to come: exactly for a whole list, and by the number of
unread nodes if some may be refused.
-/

namespace PathFunctions

inductive NodeSequence (N : Type)
  | all (unread : List N)
  | selected (keep : N → Bool) (unread : List N)

/-- The least and the greatest number of nodes there may be. -/
structure SizeHint where
  lower : Nat
  upper : Nat
  deriving DecidableEq

namespace NodeSequence

variable {N : Type}

def empty : NodeSequence N := all []

/-- The nodes still to come. -/
def toList : NodeSequence N → List N
  | all unread => unread
  | selected keep unread => unread.filter keep

/-- The next node and what is left; once a sequence has none, it never has one again. -/
def next : NodeSequence N → Option N × NodeSequence N
  | all unread => (unread.head?, all unread.tail)
  | selected keep unread =>
    let rest := unread.dropWhile fun node => !keep node
    (rest.head?, selected keep rest.tail)

def hint : NodeSequence N → SizeHint
  | all unread => ⟨unread.length, unread.length⟩
  | selected _ unread => ⟨0, unread.length⟩

theorem head?_dropWhile (keep : N → Bool) : ∀ unread : List N,
    (unread.dropWhile fun node => !keep node).head? = (unread.filter keep).head?
  | [] => rfl
  | node :: unread => by
    cases h : keep node <;> simp [h, head?_dropWhile keep unread]

theorem filter_tail_dropWhile (keep : N → Bool) : ∀ unread : List N,
    (unread.dropWhile fun node => !keep node).tail.filter keep = (unread.filter keep).tail
  | [] => rfl
  | node :: unread => by
    cases h : keep node <;> simp [h, filter_tail_dropWhile keep unread]

theorem next_fst (sequence : NodeSequence N) : sequence.next.1 = sequence.toList.head? := by
  cases sequence with
  | all unread => rfl
  | selected keep unread => exact head?_dropWhile keep unread

theorem toList_next_snd (sequence : NodeSequence N) :
    sequence.next.2.toList = sequence.toList.tail := by
  cases sequence with
  | all unread => rfl
  | selected keep unread => exact filter_tail_dropWhile keep unread

def describe (nodes : NodeSequence N) : String :=
  Text.describeOpenRecord "NodeSequence" [("size_hint",
    "(" ++ toString nodes.hint.lower ++ ", "
      ++ Text.describeOption (some (toString nodes.hint.upper)) ++ ")")]

end NodeSequence

end PathFunctions
