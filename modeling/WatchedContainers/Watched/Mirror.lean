import WatchedContainers.Watched.Mutation
import WatchedContainers.Watched.Run

/-!
# Mirrors

A mirror is a bare container that follows a watched one by the events raised after modifications.
It takes from an event the kind, the position, the element, the batch and the number of copies, and
makes the same modification on its own elements (`Standard.replay`).

What this does to the elements alone is said in `Standard.Redoes`, without the operations of the
containers.
-/

namespace WatchedContainers

variable {C κ α : Type}

/-! ### Replaying a modification

A replay gives the element that it takes out or replaces, and the container afterwards. -/

/-- Modifications that every collection knows. -/
def Collection.replay? [Collection C α] [BEq α] : Modification α → Option (C → Option α × C)
  | .add v => some fun c => (none, (add c v).2)
  | .addAll vs => some fun c => (none, (addAll c vs).2)
  | .remove v => some fun c => remove c v
  | .removeAll vs => some fun c => (none, (retain c fun x => !vs.any (· == x)).2)
  | .retainAll vs => some fun c => (none, (retain c fun x => vs.any (· == x)).2)
  | .clear => some fun c => (none, clear c)
  | _ => none

/-- Modifications of a sequence at a position. -/
def Sequence.replay : Modification α → Sequence α → Option α × Sequence α
  | .addIndexed i v, s | .addIterated i v, s => (none, ⟨s.items.insertIdx i v⟩)
  | .addAllIndexed i vs, s => (none, ⟨s.items.take i ++ vs ++ s.items.drop i⟩)
  | .removeIndexed i, s | .removeIterated i _, s => (s.items[i]?, ⟨s.items.eraseIdx i⟩)
  | .setIndexed i v, s | .setIterated i v, s => (s.items[i]?, ⟨s.items.set i v⟩)
  | _, s => (none, s)

namespace Standard

/-- Modifications that only some containers know.  What an iterator takes out is known by its
position in sequences and queues, and by its value in sets and bags. -/
def replayOwn : Standard α C κ → Modification α → C → Option α × C
  | sequence, m, s => s.replay m
  | queue, .removeNext, q => Buffered.removeNext q
  | bag, .addCopies v n, b => (none, (Counted.addCopies b v n).2)
  | bag, .removeCopies v n, b => (none, (Counted.removeCopies b v n).2)
  | k, .removeIterated i v, c => k.erase i v c
  | _, _, c => (none, c)

def replay (k : Standard α C κ) (m : Modification α) (c : C) : Option α × C :=
  letI := k.equality
  letI := k.collection
  match Collection.replay? m with
  | some f => f c
  | none => k.replayOwn m c

def mirror (k : Standard α C κ) (events : List (Event α)) (c : C) : C :=
  events.foldl (fun c e => (k.replay e.modification c).2) c

end Standard

/-! ### Turns that can be mirrored -/

def Command.isPositional : Command α → Bool
  | .addAt _ _ | .addAllAt _ _ | .removeAt _ | .set _ _ => true
  | _ => false

/-- At a sub-list only the commands at a position name the positions they change, and at a view of
a sorted set no event tells of the bounds.  At the container and at iterators every command does. -/
def Command.isTraceable : List (Frame κ α) → Command α → Bool
  | .subList _ :: _, command => command.isPositional
  | .sortedView _ :: _, _ => false
  | _, _ => true

namespace Turn

def isTraceable (t : Turn C κ α) : Bool :=
  match t.action with
  | .command command => command.isTraceable t.before.frames
  | _ => true

def reports (t : Turn C κ α) : List (Event α) := t.heard.filterMap Heard.told?

end Turn

end WatchedContainers
