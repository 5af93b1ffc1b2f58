import WatchedContainers.Container.Sequence
import WatchedContainers.Container.Queue
import WatchedContainers.Container.UniqueSet
import WatchedContainers.Container.SortedSet
import WatchedContainers.Container.CountedBag
import WatchedContainers.Container.Noted
import WatchedContainers.Rehearsal.Scenario

/-!
# Exhibits

The containers that a rehearsal can be held with.  An `Exhibit` is a container together with its
interfaces and what is offered of it, so that a script is played in one way on all of them.  Sets
and bags need an order of the elements.
-/

namespace WatchedContainers.Rehearsal

structure Exhibit (α : Type) where
  Container : Type
  Cursor : Type
  [collection : Collection Container α]
  [traversal : Traversal Container Cursor α]
  [noting : Noting Container]
  offer : Offer Container Cursor α
  container : Container

namespace Exhibit

attribute [instance] collection traversal noting

variable {α : Type}

/-- The container with values added one after the other. -/
def fill {C : Type} [Collection C α] (c : C) (values : List α) : C :=
  values.foldl (fun c v => (Collection.add c v).2) c

/-! ### Lists and queues -/

section

variable [BEq α] [Describe α] (values : List α)

def sequence : Exhibit α where
  Container := Sequence α
  Cursor := PositionCursor
  offer :=
    { family := .list inferInstance, contents := fun s => .elements s.toList
      text := some Sequence.text }
  container := fill ⟨[]⟩ values

def queue : Exhibit α where
  Container := Queue α
  Cursor := PositionCursor
  offer :=
    { family := .buffer inferInstance, contents := fun q => .elements q.toList
      text := some Queue.text }
  container := fill ⟨[]⟩ values

def notedList : Exhibit α where
  Container := NotedList α
  Cursor := PositionCursor
  offer := { family := .list inferInstance, contents := fun l => .elements l.toList }
  container := fill { items := [] } values

/-- A list that never changes has its elements from the start. -/
def fixedList : Exhibit α where
  Container := FixedList α
  Cursor := PositionCursor
  offer := { family := .list inferInstance, contents := fun l => .elements l.toList }
  container := { items := values }

def plainList : Exhibit α where
  Container := PlainList α
  Cursor := PositionCursor
  offer := { contents := fun l => .elements l.toList }
  container := fill ⟨[]⟩ values

end

/-! ### Sets and bags -/

section

variable [BEq α] [Ord α] [Describe α] (values : List α)

def ascending (vs : List α) : List α := vs.mergeSort fun a b => (compare a b).isLE

/-- The elements of a set without an order are shown in ascending order. -/
def uniqueSet : Exhibit α where
  Container := UniqueSet α
  Cursor := CopyCursor α
  offer := { contents := fun s => .elements (ascending s.toList), arrange := some ascending }
  container := fill .empty values

def sortedSet [Std.TransOrd α] : Exhibit α where
  Container := SortedSet α
  Cursor := ResumingCursor α
  offer :=
    { family := .sorted inferInstance inferInstance, contents := fun s => .elements s.toList
      text := some SortedSet.text }
  container := fill .empty values

def bag [Std.TransOrd α] (reportsAdded : Bool) : Exhibit α where
  Container := CountedBag α
  Cursor := CopyCursor α
  offer := { family := .bag inferInstance, contents := fun b => .counts b.counts }
  container := fill (.reporting reportsAdded) values

def notedSortedList : Exhibit α where
  Container := NotedSortedList α
  Cursor := ResumingCursor α
  offer :=
    { family := .sorted inferInstance inferInstance, contents := fun l => .elements l.toList }
  container := fill { items := [] } values

end

/-! ### Playing -/

variable [BEq α]

/-- Plays a script on the bare container, whose earlier notes are left out. -/
def playBare (e : Exhibit α) (steps : List (BareStep α)) : Option (List (Answer (Reply α) α)) :=
  understood? (Rehearsal.playBare e.offer steps (Noting.settle e.container))

def playScenario [ObjectIdentity α] [Describe α] (e : Exhibit α) (element : String)
    (tracing : Bool) (make : Make α) (steps : List (Step α)) : Option (Outcome α) :=
  Rehearsal.playScenario element tracing e.offer e.container make steps

end Exhibit

end WatchedContainers.Rehearsal
