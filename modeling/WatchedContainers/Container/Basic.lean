import WatchedContainers.Container.Capabilities
import WatchedContainers.Container.Bound

/-!
# Interfaces of containers

A container is watched through what it offers: `Collection` is the base, and lists, bags, buffers
and sorted sets add to it.  All operations are functions that give the changed container back.

Three batch operations have a default that goes element by element (`addEach`, `insertEach`,
`removeEach`); a container may bring a faster one.

A container may also keep a note of the changes it was asked for (`Noting`); whoever runs an
operation collects the notes.
-/

namespace WatchedContainers

/-! ### Batches element by element -/

section Batches

variable {C α : Type}

def addEach (add : C → α → Bool × C) (c : C) (values : List α) : Bool × C :=
  values.foldl (fun acc v => ((add acc.2 v).1 || acc.1, (add acc.2 v).2)) (false, c)

theorem addEach_concat (add : C → α → Bool × C) (c : C) (vs : List α) (v : α) :
    addEach add c (vs ++ [v]) =
      ((add (addEach add c vs).2 v).1 || (addEach add c vs).1, (add (addEach add c vs).2 v).2) := by
  rw [addEach, List.foldl_append]
  rfl

/-- Inserts the values one after the other at rising positions. -/
def insertEach (insertAt : C → Nat → α → C) (c : C) (index : Nat) : List α → C
  | [] => c
  | v :: vs => insertEach insertAt (insertAt c index v) (index + 1) vs

/-- Removes `count` elements from position `start` on, the last one first. -/
def removeEach (removeAt : C → Nat → Option α × C) (c : C) (start : Nat) : Nat → C
  | 0 => c
  | count + 1 => removeEach removeAt (removeAt c (start + count)).2 start count

end Batches

/-! ### The interfaces -/

class Collection (C : Type) (α : outParam Type) where
  capabilities : Capabilities
  size : C → Nat
  contains : C → α → Bool
  /-- Adds a value and tells whether the container changed. -/
  add : C → α → Bool × C
  addAll : C → List α → Bool × C := addEach add
  /-- Removes one element equal to the value and gives it back. -/
  remove : C → α → Option α × C
  /-- Keeps the elements that satisfy the test and tells whether any was removed. -/
  retain : C → (α → Bool) → Bool × C
  clear : C → C

def Collection.isEmpty {C α : Type} [Collection C α] (c : C) : Bool := Collection.size c == 0

/-- A walk over the elements of a container that may remove the element it produced last. -/
class Traversal (C : Type) (κ α : outParam Type) where
  cursor : C → κ
  next : κ → C → Option α × κ
  /-- Gives the removed element, or nothing if none was produced since the last removal. -/
  remove : κ → C → Option α × κ × C

/-- Positional access.  Positions are checked before these are called: up to the size for
insertions, below it otherwise. -/
class Positional (C : Type) (α : outParam Type) where
  get? : C → Nat → Option α
  insertAt : C → Nat → α → C
  insertAllAt : C → Nat → List α → Bool × C :=
    fun c index values => (!values.isEmpty, insertEach insertAt c index values)
  removeAt : C → Nat → Option α × C
  /-- Replaces the element and gives back the previous one. -/
  setAt : C → Nat → α → Option α × C
  /-- Removes the elements from `start` up to and without `stop`. -/
  removeRange : C → Nat → Nat → C :=
    fun c start stop => removeEach removeAt c start (stop - start)

class Counted (C : Type) (α : outParam Type) where
  count : C → α → Nat
  /-- The flag is up to the container and is not relied upon. -/
  addCopies : C → α → Nat → Bool × C
  removeCopies : C → α → Nat → Bool × C

/-- A container that knows which element goes next. -/
class Buffered (C : Type) (α : outParam Type) where
  peekNext : C → Option α
  removeNext : C → Option α × C

class Sorted (C : Type) (κ α : outParam Type) where
  first : C → Option α
  last : C → Option α
  within : C → Bounds α → List α
  sizeWithin : C → Bounds α → Nat := fun c b => (within c b).length
  cursorWithin : C → Bounds α → κ

/-! ### Notes of a container -/

/-- A change a container was asked for, and the position it is about. -/
structure Call where
  name : String
  position : Nat
deriving DecidableEq

/-- Something that may hold notes of changes. -/
class Noting (S : Type) where
  /-- The notes taken since they were last collected, oldest first. -/
  calls : S → List Call
  /-- The same with its notes collected. -/
  settle : S → S

/-- Most containers take no notes. -/
abbrev Noting.silent (S : Type) : Noting S := ⟨fun _ => [], id⟩

end WatchedContainers
