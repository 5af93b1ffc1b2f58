import WatchedContainers.Watched.Mirror
import WatchedContainers.Watched.Tally

/-!
# What a replay does to the elements

A replay carries out operations of the container (`Standard.replay`).  Here the same is said without
them: of the list of the elements of a sequence or a queue (`Modification.redo`), of the elements
that a set holds (`Modification.RedoesSet`), and of what a bag counts (`Modification.RedoesBag`).
-/

namespace WatchedContainers

variable {C κ α : Type}

namespace Modification

/-- What becomes of a list, and the element that is taken out or replaced.  Of equal elements the
first one is taken out. -/
def redo [BEq α] : Modification α → List α → Option α × List α
  | .add v, l => (none, l ++ [v])
  | .addAll vs, l => (none, l ++ vs)
  | .addIndexed i v, l | .addIterated i v, l => (none, l.insertIdx i v)
  | .addAllIndexed i vs, l => (none, l.take i ++ vs ++ l.drop i)
  | .remove v, l => (l.find? (· == v), l.eraseP (· == v))
  | .removeIndexed i, l | .removeIterated i _, l => (l[i]?, l.eraseIdx i)
  | .removeAll vs, l => (none, l.filter fun x => !vs.any (· == x))
  | .retainAll vs, l => (none, l.filter fun x => vs.any (· == x))
  | .clear, _ => (none, [])
  | .setIndexed i v, l | .setIterated i v, l => (l[i]?, l.set i v)
  | .removeNext, l => (l.head?, l.tail)
  | .addCopies _ _, l | .removeCopies _ _, l => (none, l)

/-- A set with the elements `l`, which are told apart by `same`, becomes one with the elements `l'`.
An addition leaves what is there, and of values that are the same the first one is stored. -/
def RedoesSet [BEq α] (same : α → α → Bool) (m : Modification α) (l : List α)
    (previous : Option α) (l' : List α) : Prop :=
  match m with
  | .add v => previous = none ∧ ∀ x, x ∈ l' ↔ x ∈ l ∨ l.any (same v) = false ∧ x = v
  | .addAll vs => previous = none ∧
      ∀ x, x ∈ l' ↔ x ∈ l ∨ l.any (same x) = false ∧ vs.find? (same x) = some x
  | .remove v | .removeIterated _ v => previous = l.find? (same v) ∧ l' = l.eraseP (same v)
  | .removeAll vs => previous = none ∧ l' = l.filter fun x => !vs.any (· == x)
  | .retainAll vs => previous = none ∧ l' = l.filter fun x => vs.any (· == x)
  | .clear => previous = none ∧ l' = []
  | _ => previous = none ∧ l' = l

/-- The bag `b` becomes `b'`.  A removal gives an element back that is equal to the value, and a
filter drops elements with all of their occurrences. -/
def RedoesBag [BEq α] [Ord α] (m : Modification α) (b : CountedBag α) (previous : Option α)
    (b' : CountedBag α) : Prop :=
  match m with
  | .add v => previous = none ∧ b.Recounts v (b.count v + 1) b'
  | .addAll vs => previous = none ∧
      ∀ u, b'.count u = b.count u + vs.countP fun v => compare v u == .eq
  | .addCopies v n => previous = none ∧ b.Recounts v (b.count v + n) b'
  | .remove v | .removeIterated _ v => (previous.isSome ↔ 0 < b.count v) ∧
      (∀ x ∈ previous, compare v x = .eq) ∧ b.Recounts v (b.count v - 1) b'
  | .removeCopies v n => previous = none ∧ b.Recounts v (b.count v - n) b'
  | .removeAll vs => previous = none ∧ b'.counts = b.counts.filter fun p => !vs.any (· == p.1)
  | .retainAll vs => previous = none ∧ b'.counts = b.counts.filter fun p => vs.any (· == p.1)
  | .clear => previous = none ∧ b'.counts = []
  | _ => previous = none ∧ b' = b

end Modification

namespace Standard

/-- What a modification does to the elements of a container, and the element it takes out or
replaces. -/
def Redoes : Standard α C κ → Modification α → C → Option α × C → Prop
  | sequence, m, s, x => x.map id Sequence.items = m.redo s.items
  | queue, m, q, x => x.map id Queue.items = m.redo q.items
  | uniqueSet, m, s, x => m.RedoesSet (fun v a => a == v) s.items x.1 x.2.items
  | sortedSet, m, s, x => m.RedoesSet (fun v a => compare v a == .eq) s.items x.1 x.2.items
  | bag, m, b, x => m.RedoesBag b x.1 x.2

end Standard

end WatchedContainers
