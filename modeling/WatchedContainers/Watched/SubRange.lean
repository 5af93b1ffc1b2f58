import WatchedContainers.Watched.Plan

/-!
# Ranges of a sorted set

A `SubRange` is what a bounded view sees of a sorted set: the elements within its bounds.  Adding
a value outside the bounds is an error; removing one is a removal that finds nothing.
-/

namespace WatchedContainers

structure SubRange (C α : Type) where
  set : C
  bounds : Bounds α

namespace SubRange

variable {C κ α : Type}

instance [Noting C] : Noting (SubRange C α) where
  calls r := Noting.calls r.set
  settle r := { r with set := Noting.settle r.set }

variable [Collection C α] [Traversal C κ α] [Sorted C κ α] [Ord α]

open Collection (size)

def inRange (r : SubRange C α) (v : α) : Bool := r.bounds.contains v

def length (r : SubRange C α) : Nat := Sorted.sizeWithin r.set r.bounds

def isEmpty (r : SubRange C α) : Bool := r.length == 0

def values (r : SubRange C α) : List α := Sorted.within r.set r.bounds

def first (r : SubRange C α) : Option α := r.values.head?

def last (r : SubRange C α) : Option α := r.values.getLast?

def contains (r : SubRange C α) (v : α) : Bool := r.inRange v && Collection.contains r.set v

def planAdd (v : α) : Operation (SubRange C α) α Bool := fun r =>
  if r.inRange v then
    let (modified, set) := Collection.add r.set v
    .ok (.reporting (.add v) (size r.set) false { r with set } (.add v modified) (size set)
      modified)
  else .error .keyOutOfRange

/-- Adds the whole batch, or nothing if one of its values is out of bounds. -/
def planAddAll (vs : List α) : Operation (SubRange C α) α Bool := fun r =>
  if vs.all r.inRange then
    let (modified, set) := Collection.addAll r.set vs
    .ok (.reporting (.addAll vs) (size r.set) false { r with set } (.addAll vs modified)
      (size set) modified)
  else .error .keyOutOfRange

def planRemove (v : α) : Operation (SubRange C α) α Bool := fun r =>
  let (removed, set) := if r.inRange v then Collection.remove r.set v else (none, r.set)
  .ok (.reporting (.remove v) (size r.set) false { r with set } (.remove v removed) (size set)
    removed.isSome)

/-- Walks along a cursor for at most `fuel` elements and removes those that fail the test. -/
def sweep (keep : α → Bool) : Nat → κ → C → Bool × C
  | 0, _, set => (false, set)
  | fuel + 1, cursor, set =>
    match Traversal.next cursor set with
    | (none, _) => (false, set)
    | (some v, cursor) =>
      if keep v then sweep keep fuel cursor set
      else
        match Traversal.remove cursor set with
        | (removed, cursor, set) =>
          let (more, set) := sweep keep fuel cursor set
          (removed.isSome || more, set)

/-- Keeps the elements within the bounds that satisfy the test, and tells whether any was removed.
A walk produces no more elements than the set has. -/
def retain (r : SubRange C α) (keep : α → Bool) : Bool × C :=
  sweep keep (size r.set + 1) (Sorted.cursorWithin r.set r.bounds) r.set

def planRemoveAll [BEq α] (vs : List α) : Operation (SubRange C α) α Bool := fun r =>
  let (modified, set) := r.retain fun x => !vs.any (· == x)
  .ok (.reporting (.removeAll vs) (size r.set) false { r with set } (.removeAll vs modified)
    (size set) modified)

def planRetainAll [BEq α] (vs : List α) : Operation (SubRange C α) α Bool := fun r =>
  let (modified, set) := r.retain fun x => vs.any (· == x)
  .ok (.reporting (.retainAll vs) (size r.set) false { r with set } (.retainAll vs modified)
    (size set) modified)

def planClear : Operation (SubRange C α) α Bool := fun r =>
  let (modified, set) := r.retain fun _ => false
  .ok (.reporting .clear (size r.set) false { r with set } (.clear modified) (size set) modified)

end SubRange

end WatchedContainers
