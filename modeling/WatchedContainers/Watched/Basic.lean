import WatchedContainers.Registry
import WatchedContainers.Watched.Collection
import WatchedContainers.Watched.Iteration
import WatchedContainers.Watched.ListIterator
import WatchedContainers.Watched.SubRange

/-!
# Watched containers and their views

A container is watched once a root handler is bound to it.  A view borrows the watched container
and has a handler of its own; opening one checks the positions, makes the handler, and only then
takes an identity for the view.
-/

namespace WatchedContainers

variable {ρ σ ν C κ α : Type}

structure Watched (C : Type) where
  inner : C
  handler : HandlerRef
  id : ContainerId

namespace Watched

/-- Binds a handler to a container under the identity `id`. -/
def bind [Collection C α] (obs : Observers ρ σ α) (inner : C) (handler : HandlerRef)
    (id : ContainerId) (w : World ρ σ) : Except Error (Watched C) × World ρ σ :=
  match w.bind obs handler id (Collection.capabilities C) with
  | (.error e, w) => (.error e, w)
  | (.ok (), w) => (.ok { inner, handler, id }, w)

def withRoot [Collection C α] (obs : Observers ρ σ α) (inner : C) (handler : HandlerRef)
    (w : World ρ σ) : Except Error (Watched C) × World ρ σ :=
  let (id, w) := w.freshId
  bind obs inner handler id w

def withListener [Collection C α] (obs : Observers ρ σ α) (registry : Registry ρ σ ν) (inner : C)
    (listener : Option (Listener ρ ν)) (config : Config) (w : World ρ σ) :
    Except Error (Watched C) × World ρ σ :=
  let (id, w) := w.freshId
  match registry.resolve obs id listener config w with
  | (.error e, w) => (.error e, w)
  | (.ok handler, w) => bind obs inner handler id w

def text (describeInner : C → String) (c : Watched C) : String :=
  Text.openRecord "Observed" [("id", c.id.debugText), ("inner", describeInner c.inner)]

end Watched

/-! ### Sub-lists -/

/-- A view of a range of a list. -/
structure SubList (C : Type) where
  segment : Segment C
  handler : HandlerRef
  id : ContainerId

namespace SubList

variable [Collection C α] [Positional C α]

/-- Opens the view of `start` up to and without `stop` in a segment served by `parent`. -/
def openIn (obs : Observers ρ σ α) (parent : HandlerRef) (segment : Segment C) (start stop : Nat)
    (w : World ρ σ) : Except Error (SubList C) × World ρ σ :=
  if stop > segment.length then (.error (.indexOutOfBounds stop segment.length), w)
  else
    match w.makeRangeView obs parent start stop with
    | (.error e, w) => (.error e, w)
    | (.ok handler, w) =>
      let (id, w) := w.freshId
      match w.bind obs handler id (Collection.capabilities C) with
      | (.error e, w) => (.error e, w)
      | (.ok (), w) => (.ok { segment := segment.narrow start stop, handler, id }, w)

def text [Describe α] (v : SubList C) : String :=
  Text.record "ObservedSubList"
    [("id", v.id.debugText), ("offset", describe v.segment.start),
      ("values", describe (v.segment.values (α := α)))]

end SubList

/-! ### Sorted views -/

/-- A view of a range of a sorted set. -/
structure SortedView (C α : Type) where
  range : SubRange C α
  handler : HandlerRef
  id : ContainerId

namespace SortedView

variable [Collection C α] [Traversal C κ α] [Sorted C κ α] [Ord α]

def openIn (obs : Observers ρ σ α) (parent : HandlerRef) (range : SubRange C α)
    (requested : Bounds α) (w : World ρ σ) : Except Error (SortedView C α) × World ρ σ :=
  match w.makeKeyedView obs parent with
  | (.error e, w) => (.error e, w)
  | (.ok handler, w) =>
    let (id, w) := w.freshId
    match w.bind obs handler id (Collection.capabilities C) with
    | (.error e, w) => (.error e, w)
    | (.ok (), w) =>
      (.ok { range := ⟨range.set, range.bounds.intersect requested⟩, handler, id }, w)

def openBetween (obs : Observers ρ σ α) (parent : HandlerRef) (range : SubRange C α)
    (start stop : α) (w : World ρ σ) : Except Error (SortedView C α) × World ρ σ :=
  if compare start stop == .gt then (.error (.invalidArgument .reversedSubSet), w)
  else SortedView.openIn obs parent range ⟨.included start, .excluded stop⟩ w

def text [Describe α] (v : SortedView C α) : String :=
  Text.record "ObservedSortedView"
    [("id", v.id.debugText), ("lower", v.range.bounds.lower.text),
      ("upper", v.range.bounds.upper.text), ("values", describe v.range.values)]

end SortedView

end WatchedContainers
