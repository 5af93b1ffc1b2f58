import WatchedContainers.Watched.Plan

/-!
# Iterations

A walk over a watched container that may remove the element it produced last.  The index of an
element counts the elements produced before it that have not been removed.
-/

namespace WatchedContainers

structure Iteration (C κ α : Type) where
  container : C
  cursor : κ
  /-- The size of the root, kept up to date across removals. -/
  size : Nat
  nextIndex : Nat := 0
  current : Option (Nat × α) := none

namespace Iteration

variable {C κ α : Type}

instance [Noting C] : Noting (Iteration C κ α) where
  calls it := Noting.calls it.container
  settle it := { it with container := Noting.settle it.container }

def along [Collection C α] (c : C) (cursor : κ) : Iteration C κ α :=
  { container := c, cursor, size := Collection.size c }

def index? (it : Iteration C κ α) : Option Nat := it.current.map (·.1)

variable [Traversal C κ α]

def next (it : Iteration C κ α) : Option α × Iteration C κ α :=
  match Traversal.next it.cursor it.container with
  | (some v, cursor) =>
    (some v, { it with cursor, nextIndex := it.nextIndex + 1, current := some (it.nextIndex, v) })
  | (none, cursor) => (none, { it with cursor })

def planRemove : Operation (Iteration C κ α) α Bool := fun it =>
  match it.current with
  | none => .error .noCurrentElement
  | some (index, v) =>
    match Traversal.remove it.cursor it.container with
    | (none, cursor, container) =>
      .ok (.unreported (.removeIterated index v) it.size false { it with cursor, container }
        (.error .noCurrentElement))
    | (some removed, cursor, container) =>
      .ok (.reporting (.removeIterated index v) it.size false
        { container, cursor, size := it.size - 1, nextIndex := index, current := none }
        (.removeIterated index removed) (it.size - 1) true)

end Iteration

end WatchedContainers
