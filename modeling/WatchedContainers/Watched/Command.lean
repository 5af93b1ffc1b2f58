import WatchedContainers.Watched.Basic

/-!
# Commands

What can be asked of a watched container, a view or an iterator: commands change it and queries
read it.  The same command is served by different operations at the container itself, at a segment
of a list, at a range of a sorted set and at an iterator; the tables here say by which.
-/

namespace WatchedContainers

/-- What the caller gets. -/
inductive Response (α : Type) where
  | nothing
  | flag (value : Bool)
  | element (value : Option α)
  | elements (values : List α)
  | number (value : Option Nat)
deriving DecidableEq

/-- One command for each kind of modification. -/
inductive Command (α : Type) where
  | add (value : α)
  | addAll (values : List α)
  | remove (value : α)
  | removeAll (values : List α)
  | retainAll (values : List α)
  | clear
  | addAt (index : Nat) (value : α)
  | addAllAt (index : Nat) (values : List α)
  | removeAt (index : Nat)
  | set (index : Nat) (value : α)
  | addCopies (value : α) (copies : Nat)
  | removeCopies (value : α) (copies : Nat)
  | removeNext
  /-- Removes the element an iterator moved over last. -/
  | removeLast
  /-- Replaces the element a list iterator moved over last. -/
  | setLast (value : α)
  /-- Inserts a value where a list iterator stands. -/
  | insert (value : α)

inductive Query (α : Type) where
  | size
  | isEmpty
  | contains (value : α)
  | values
  | get (index : Nat)
  | count (value : α)
  | peekNext
  | first
  | last
  | inRange (value : α)
  /-- The index of the element an iterator produced last. -/
  | index
  | hasNext
  | nextIndex
  | hasPrevious
  | previousIndex

variable {C κ α : Type}

def Command.refusal : Command α → Response α
  | .removeAt _ | .set _ _ | .removeNext => .element none
  | _ => .flag false

/-! ### Commands at a container -/

def Collection.operation? [Collection C α] [BEq α] :
    Command α → Option (Operation C α (Response α))
  | .add v => some (.answering .flag (planAdd v))
  | .addAll vs => some (.answering .flag (planAddAll vs))
  | .remove v => some (.answering .flag (planRemove v))
  | .removeAll vs => some (.answering .flag (planRemoveAll vs))
  | .retainAll vs => some (.answering .flag (planRetainAll vs))
  | .clear => some (.answering .flag planClear)
  | _ => none

def Counted.operation? [Collection C α] [Counted C α] :
    Command α → Option (Operation C α (Response α))
  | .addCopies v n => some (.answering .flag (planAddCopies v n))
  | .removeCopies v n => some (.answering .flag (planRemoveCopies v n))
  | _ => none

def Buffered.operation? [Collection C α] [Buffered C α] :
    Command α → Option (Operation C α (Response α))
  | .removeNext => some (.answering .element planRemoveNext)
  | _ => none

/-! ### Commands at a segment of a list -/

namespace Segment

variable [Collection C α] [Positional C α]

/-- The positional commands, which the whole list shares with its segments. -/
def positional? : Command α → Option (Operation (Segment C) α (Response α))
  | .addAt i v => some (.answering .flag (planAddAt i v))
  | .addAllAt i vs => some (.answering .flag (planAddAllAt i vs))
  | .removeAt i => some (.answering .element (planRemoveAt i))
  | .set i v => some (.answering .element (planSet i v))
  | _ => none

def operation? [BEq α] : Command α → Option (Operation (Segment C) α (Response α))
  | .add v => some (.answering .flag (planAdd v))
  | .addAll vs => some (.answering .flag (planAddAll vs))
  | .remove v => some (.answering .flag (planRemove v))
  | .removeAll vs => some (.answering .flag (planRemoveAll vs))
  | .retainAll vs => some (.answering .flag (planRetainAll vs))
  | .clear => some (.answering .flag planClear)
  | c => positional? c

end Segment

/-! ### Commands at a range of a sorted set -/

def SubRange.operation? [Collection C α] [Traversal C κ α] [Sorted C κ α] [Ord α] [BEq α] :
    Command α → Option (Operation (SubRange C α) α (Response α))
  | .add v => some (.answering .flag (planAdd v))
  | .addAll vs => some (.answering .flag (planAddAll vs))
  | .remove v => some (.answering .flag (planRemove v))
  | .removeAll vs => some (.answering .flag (planRemoveAll vs))
  | .retainAll vs => some (.answering .flag (planRetainAll vs))
  | .clear => some (.answering .flag planClear)
  | _ => none

/-! ### Commands at an iterator -/

def Iteration.operation? [Traversal C κ α] :
    Command α → Option (Operation (Iteration C κ α) α (Response α))
  | .removeLast => some (.answering .flag planRemove)
  | _ => none

def ListIterator.operation? [Collection C α] [Positional C α] :
    Command α → Option (Operation (ListIterator C) α (Response α))
  | .removeLast => some (.answering .flag planRemove)
  | .setLast v => some (.answering .flag (planSet v))
  | .insert v => some (.answering .flag (planAdd v))
  | _ => none

end WatchedContainers
