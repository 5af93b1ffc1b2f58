import WatchedContainers.Watched.Segment

/-!
# List iterators

An iterator stands between two elements of a segment and moves in both directions.  The element it
moved over last can be replaced or removed; a new one is inserted where the iterator stands.
-/

namespace WatchedContainers

structure ListIterator (C : Type) where
  segment : Segment C
  cursor : Nat := 0
  last : Option Nat := none

namespace ListIterator

variable {C α : Type}

instance [Noting C] : Noting (ListIterator C) where
  calls it := Noting.calls it.segment
  settle it := { it with segment := Noting.settle it.segment }

def start (s : Segment C) : ListIterator C := { segment := s }

/-- The same iterator over a changed list. -/
def withList (it : ListIterator C) (list : C) : ListIterator C :=
  { it with segment := { it.segment with list } }

def hasPrevious (it : ListIterator C) : Bool := it.cursor != 0

def nextIndex (it : ListIterator C) : Nat := it.cursor

def previousIndex? (it : ListIterator C) : Option Nat :=
  if it.cursor = 0 then none else some (it.cursor - 1)

variable [Collection C α] [Positional C α]

open Collection (size)
open Positional (get? insertAt removeAt setAt)

def hasNext (it : ListIterator C) : Bool := it.cursor < it.segment.length

/-- The element at a position of the segment, wherever the segment ends. -/
def elementAt (it : ListIterator C) (index : Nat) : Option α :=
  get? it.segment.list (it.segment.start + index)

def next (it : ListIterator C) : Option α × ListIterator C :=
  if it.hasNext then
    (it.elementAt it.cursor, { it with cursor := it.cursor + 1, last := some it.cursor })
  else (none, it)

def previous (it : ListIterator C) : Option α × ListIterator C :=
  match it.previousIndex? with
  | some index => (it.elementAt index, { it with cursor := index, last := some index })
  | none => (none, it)

def planRemove : Operation (ListIterator C) α Bool := fun it =>
  match it.last with
  | none => .error .noCurrentElement
  | some index =>
    match it.elementAt index with
    | none => .error .noCurrentElement
    | some v =>
      match removeAt it.segment.list (it.segment.start + index) with
      | (some removed, list) =>
        .ok (.reporting (.removeIterated index v) (size it.segment.list) false
          { it.withList list with cursor := index, last := none }
          (.removeIterated index removed) (size list) true)
      | (none, list) =>
        .ok (.unreported (.removeIterated index v) (size it.segment.list) false
          { it.withList list with cursor := index, last := none } (.ok true))

/-- Replaces the element moved over last, which stays the one moved over last. -/
def planSet (v : α) : Operation (ListIterator C) α Bool := fun it =>
  match it.last with
  | none => .error .noCurrentElement
  | some index =>
    let (previous, list) := setAt it.segment.list (it.segment.start + index) v
    match get? list (it.segment.start + index), previous with
    | some current, some p =>
      .ok (.reporting (.setIterated index v) (size it.segment.list) false (it.withList list)
        (.setIterated index current p) (size it.segment.list) true)
    | _, _ =>
      .ok (.unreported (.setIterated index v) (size it.segment.list) false (it.withList list)
        (.ok true))

/-- Inserts a value in front of the element that `next` would produce. -/
def planAdd (v : α) : Operation (ListIterator C) α Bool := fun it =>
  let index := it.cursor
  let list := insertAt it.segment.list (it.segment.start + index) v
  let moved := { it.withList list with cursor := index + 1, last := none }
  match get? list (it.segment.start + index) with
  | some added =>
    .ok (.reporting (.addIterated index v) (size it.segment.list) false moved
      (.addIterated index added) (size list) true)
  | none => .ok (.unreported (.addIterated index v) (size it.segment.list) false moved (.ok true))

end ListIterator

end WatchedContainers
