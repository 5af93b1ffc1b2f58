import WatchedContainers.Watched.Plan

/-!
# Segments of a list

A segment leaves out the first `start` and the last `tail` elements of a list; it grows and shrinks
with the changes made through it.  Positions are counted from the start of the segment.  The whole
list is a segment that leaves nothing out.

Two kinds of operation stand here: the positional ones, which the whole list shares with its
segments, and the operations of a collection, which a proper segment has to work out by position.
-/

namespace WatchedContainers

structure Segment (C : Type) where
  list : C
  start : Nat
  tail : Nat

namespace Segment

variable {C α : Type}

instance [Noting C] : Noting (Segment C) where
  calls s := Noting.calls s.list
  settle s := { s with list := Noting.settle s.list }

def whole (c : C) : Segment C := ⟨c, 0, 0⟩

variable [Collection C α] [Positional C α]

open Collection (size)
open Positional (insertAt insertAllAt removeAt setAt removeRange)

def length (s : Segment C) : Nat := size s.list - s.start - s.tail

def isEmpty (s : Segment C) : Bool := s.length == 0

def narrow (s : Segment C) (start stop : Nat) : Segment C :=
  ⟨s.list, s.start + start, s.tail + (s.length - stop)⟩

def get? (s : Segment C) (index : Nat) : Option α :=
  if index < s.length then Positional.get? s.list (s.start + index) else none

def values (s : Segment C) : List α :=
  (List.range s.length).filterMap fun index => Positional.get? s.list (s.start + index)

/-! ### Positional operations -/

def checkInsert (s : Segment C) (index : Nat) : Except Error Unit :=
  if index > s.length then .error (.indexOutOfBounds index s.length) else .ok ()

def check (s : Segment C) (index : Nat) : Except Error Unit :=
  if index ≥ s.length then .error (.indexOutOfBounds index s.length) else .ok ()

def planAddAt (index : Nat) (v : α) : Operation (Segment C) α Bool := fun s => do
  s.checkInsert index
  let list := insertAt s.list (s.start + index) v
  match Positional.get? list (s.start + index) with
  | some added =>
    return .reporting (.addIndexed index v) (size s.list) false { s with list }
      (.addIndexed index added) (size list) true
  | none =>
    return .unreported (.addIndexed index v) (size s.list) false { s with list } (.ok true)

def planAddAllAt (index : Nat) (vs : List α) : Operation (Segment C) α Bool := fun s => do
  s.checkInsert index
  let (modified, list) := insertAllAt s.list (s.start + index) vs
  return .reporting (.addAllIndexed index vs) (size s.list) false { s with list }
    (.addAllIndexed index vs modified) (size list) modified

def planRemoveAt (index : Nat) : Operation (Segment C) α (Option α) := fun s => do
  s.check index
  match removeAt s.list (s.start + index) with
  | (some previous, list) =>
    return .reporting (.removeIndexed index) (size s.list) none { s with list }
      (.removeIndexed index previous) (size list) (some previous)
  | (none, list) =>
    return .unreported (.removeIndexed index) (size s.list) none { s with list } (.ok none)

def planSet (index : Nat) (v : α) : Operation (Segment C) α (Option α) := fun s => do
  s.check index
  let (previous, list) := setAt s.list (s.start + index) v
  match Positional.get? list (s.start + index), previous with
  | some current, some p =>
    return .reporting (.setIndexed index v) (size s.list) none { s with list }
      (.setIndexed index current p) (size s.list) previous
  | _, _ =>
    return .unreported (.setIndexed index v) (size s.list) none { s with list } (.ok previous)

/-! ### Collection operations by position -/

def position? [BEq α] (s : Segment C) (v : α) : Option Nat :=
  (List.range s.length).find? fun index =>
    match Positional.get? s.list (s.start + index) with
    | some x => x == v
    | none => false

def contains [BEq α] (s : Segment C) (v : α) : Bool := (s.position? v).isSome

def planAdd (v : α) : Operation (Segment C) α Bool := fun s =>
  let position := size s.list - s.tail
  let list := insertAt s.list position v
  match Positional.get? list position with
  | some added =>
    .ok (.reporting (.add v) (size s.list) false { s with list } (.add added true) (size list) true)
  | none => .ok (.unreported (.add v) (size s.list) false { s with list } (.ok true))

def planAddAll (vs : List α) : Operation (Segment C) α Bool := fun s =>
  let (modified, list) := insertAllAt s.list (size s.list - s.tail) vs
  .ok (.reporting (.addAll vs) (size s.list) false { s with list } (.addAll vs modified)
    (size list) modified)

def planRemove [BEq α] (v : α) : Operation (Segment C) α Bool := fun s =>
  let (removed, list) := match s.position? v with
    | some index => removeAt s.list (s.start + index)
    | none => (none, s.list)
  .ok (.reporting (.remove v) (size s.list) false { s with list } (.remove v removed) (size list)
    removed.isSome)

/-- Goes down from position `start + count` to `start` and removes the elements that fail the
test. -/
def sweep (keep : α → Bool) (list : C) (start : Nat) : Nat → Bool × C
  | 0 => (false, list)
  | count + 1 =>
    match Positional.get? list (start + count) with
    | some v =>
      if keep v then sweep keep list start count
      else (true, (sweep keep (removeAt list (start + count)).2 start count).2)
    | none => sweep keep list start count

/-- Keeps the elements of the segment that satisfy the test, and tells whether any was removed. -/
def retain (s : Segment C) (keep : α → Bool) : Bool × C := sweep keep s.list s.start s.length

def planRemoveAll [BEq α] (vs : List α) : Operation (Segment C) α Bool := fun s =>
  let (modified, list) := s.retain fun x => !vs.any (· == x)
  .ok (.reporting (.removeAll vs) (size s.list) false { s with list } (.removeAll vs modified)
    (size list) modified)

def planRetainAll [BEq α] (vs : List α) : Operation (Segment C) α Bool := fun s =>
  let (modified, list) := s.retain fun x => vs.any (· == x)
  .ok (.reporting (.retainAll vs) (size s.list) false { s with list } (.retainAll vs modified)
    (size list) modified)

def planClear : Operation (Segment C) α Bool := fun s =>
  let modified := s.length != 0
  let list := removeRange s.list s.start (s.start + s.length)
  .ok (.reporting .clear (size s.list) false { s with list } (.clear modified) (size list) modified)

end Segment

end WatchedContainers
