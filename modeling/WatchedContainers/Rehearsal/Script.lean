import WatchedContainers.Watched.Basic

/-!
# Scripts

A rehearsal plays a script: steps on handlers, on watched containers and their views, and on bare
containers.  The listeners are actors with scripts of their own.  An actor may veto proposals, and
whenever it is called it may call the handler that raised the event.
-/

namespace WatchedContainers.Rehearsal

/-! ### Actors -/

/-- Conditions on an event, all of which have to hold for a veto. -/
structure Veto (α : Type) where
  mask : Option Mask := none
  /-- The subject is one of these. -/
  subjects : Option (List α) := none
  /-- The batch contains this. -/
  batchHas : Option α := none
  sizeAtLeast : Option Nat := none
  indexAtLeast : Option Nat := none
  copiesAtLeast : Option Nat := none
  view : Option Bool := none
  /-- The actor is called for one of these times. -/
  calls : Option (List Nat) := none

/-- A call of a handler; listeners are taken from `l`. -/
inductive HandlerCall (l α : Type) where
  | addListener (phase : Phase) (listener : l) (mask : Mask)
  | removeListener (phase : Phase) (listener : l)
  | listeners (phase : Phase)
  | subscribe (phase : Phase) (listener : l)
  | hooksSummary
  | propose (m : Modification α) (size : Nat)
  | conclude (c : Completion α) (size : Nat)
  | unknown (name : String)

/-- A call made by an actor, every time or at one of its turns only. -/
structure Act (l α : Type) where
  turn : Option Nat
  call : HandlerCall l α

structure Actor (α : Type) where
  name : String
  /-- Whether the texts of an event are noted too. -/
  full : Bool
  veto : Option (Veto α)
  acts : List (Act (Actor α) α)

/-! ### Hooks, handlers, listener values -/

inductive HooksSpec where
  | acceptAll
  | noShrinking
  | readOnly
  | logging (veto : Mask)
  | managed (config : Config)

inductive HandlerSpec where
  | acceptAll
  | managed (config : Config)
  | over (hooks : HooksSpec) (config : Config)

/-- Listener values that only special factories understand, or none at all. -/
inductive Special where
  | readOnly
  | text (value : String)
  | meaningless (tag : String)
deriving DecidableEq

inductive ValueSpec (α : Type) where
  | listeners (pre post : Option (Actor α)) (mask : Option Mask)
  | hooks (spec : HooksSpec)
  | special (value : Special)

/-- A listener value and the name of its type. -/
structure ListenerSpec (α : Type) where
  typeName : String
  value : ValueSpec α

inductive FactorySpec where
  | ofListeners
  | readyMade
  | readOnly (id : String)
  | counting (id : String)
  | label (id : String) (labels : List String)
  | greedy (id : String)
  | declining (id : String)

inductive RegistryStart where
  | empty
  | standard
  | shared

structure RegistrySpec where
  start : RegistryStart
  factories : List FactorySpec

/-! ### Steps on handlers -/

inductive HandlerStep (α : Type) where
  | call (c : HandlerCall (Actor α) α)
  | info
  | bind (capabilities : Capabilities)
  | keep (name : String)
  | names
  | rangeView (start stop : Nat) (name : String)
  | keyedView (name : String)
  /-- Views of views, of a range or else keyed ones. -/
  | chain (times : Nat) (range : Option (Nat × Nat)) (name : String)
  | sameHooks (other : String)

inductive ProtocolStep (α : Type) where
  | new (spec : HandlerSpec) (name : String)
  | registry (spec : RegistrySpec) (name : String)
  | register (registry : String) (factory : FactorySpec)
  | factories (registry : String)
  | sameRegistry (registry other : String)
  | resolve (registry : String) (listener : Option (ListenerSpec α)) (config : Config)
      (name : String)
  | drop (handler : String)
  | nextId
  | handler (name : String) (step : HandlerStep α)
  | unknown

/-! ### Steps on watched containers -/

inductive IterationStep (α : Type) where
  | next
  | remove
  | index
  /-- Walks on to the end and removes the given elements, or all. -/
  | walk (values : Option (List α))
  | on (handler : String) (step : HandlerStep α)
  | unknown

inductive ListIteratorStep (α : Type) where
  | hasNext
  | nextIndex
  | next
  | hasPrevious
  | previousIndex
  | previous
  | remove
  | set (value : α)
  | add (value : α)
  | on (handler : String) (step : HandlerStep α)
  | unknown

inductive Step (α : Type) where
  | on (handler : String) (step : HandlerStep α)
  | handler (step : HandlerStep α)
  | id
  | size
  | isEmpty
  | contains (value : α)
  | add (value : α)
  | addAll (values : List α)
  | remove (value : α)
  | removeAll (values : List α)
  | retainAll (values : List α)
  | clear
  | iterate (script : List (IterationStep α))
  | text
  | drop
  | get (index : Nat)
  | addAt (index : Nat) (value : α)
  | addAllAt (index : Nat) (values : List α)
  | removeAt (index : Nat)
  | set (index : Nat) (value : α)
  | listIterate (script : List (ListIteratorStep α))
  | subList (start stop times : Nat) (steps : List (Step α))
  | offset
  | peekNext
  | removeNext
  | count (value : α)
  | addCopies (value : α) (copies : Nat)
  | removeCopies (value : α) (copies : Nat)
  | first
  | last
  | inRange (value : α)
  | range (bounds : Bounds α) (times : Nat) (steps : List (Step α))
  | subSet (start stop : α) (steps : List (Step α))
  | unknown

/-- How a container comes to be watched: through the shared registry, through one of its own, or by
a handler that was made beforehand. -/
inductive Make (α : Type) where
  | shared (listener : Option (ListenerSpec α))
  | resolved (registry : RegistrySpec) (listener : Option (ListenerSpec α)) (config : Config)
  | handler (spec : HandlerSpec) (boundBefore : Bool)

/-! ### Steps on bare containers -/

inductive CursorStep (α : Type) where
  | next
  | remove
  | walk (values : Option (List α))
  | unknown

inductive BareStep (α : Type) where
  | capabilities
  | size
  | isEmpty
  | contains (value : α)
  | add (value : α)
  | addAll (values : List α)
  | remove (value : α)
  | retain (values : List α)
  | clear
  | cursor (script : List (CursorStep α))
  | get (index : Nat)
  | insertAt (index : Nat) (value : α)
  | insertAllAt (index : Nat) (values : List α)
  | removeAt (index : Nat)
  | setAt (index : Nat) (value : α)
  | removeRange (start stop : Nat)
  | peekNext
  | removeNext
  | first
  | last
  | within (bounds : Bounds α)
  | sizeWithin (bounds : Bounds α)
  | cursorWithin (bounds : Bounds α) (script : List (CursorStep α))
  | count (value : α)
  | addCopies (value : α) (copies : Nat)
  | removeCopies (value : α) (copies : Nat)
  | unknown

end WatchedContainers.Rehearsal
