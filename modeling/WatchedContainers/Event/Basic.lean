import WatchedContainers.Event.Modification

/-!
# Events

An event tells the root's hooks of one modification, before it happens or after it did.  Sizes are
those of the root container and positions are in its coordinates, also when the operation was
called on a view; the view is then named together with where it starts.
-/

namespace WatchedContainers

inductive Phase where
  | pre
  | post
deriving DecidableEq

namespace Phase

def name : Phase → String
  | pre => "Pre"
  | post => "Post"

/-- The phase inside running text and other names. -/
def word : Phase → String
  | pre => "pre"
  | post => "post"

end Phase

/-- The view an operation was called on, and its start in root coordinates. -/
structure Viewpoint where
  id : ContainerId
  offset : Nat
deriving DecidableEq

/-- What became of a modification. -/
structure Aftermath (α : Type) where
  previous : Option α
  postSize : Nat
  modified : Bool
deriving DecidableEq

structure Event (α : Type) where
  observed : ContainerId
  handler : HandlerRef
  modification : Modification α
  view : Option Viewpoint
  preSize : Nat
  aftermath : Option (Aftermath α)
deriving DecidableEq

namespace Event

variable {α : Type}

def kind (e : Event α) : Kind := e.modification.kind

def isPre (e : Event α) : Bool := e.aftermath.isNone

def phase (e : Event α) : Phase := if e.isPre then .pre else .post

def covered (e : Event α) (m : Mask) : Bool := m.covers e.kind

def index? (e : Event α) : Option Nat := e.modification.index?

def subject? (e : Event α) : Option α := e.modification.subject?

def batch? (e : Event α) : Option (List α) := e.modification.batch?

def repetitions (e : Event α) : Nat := e.modification.repetitions

def isView (e : Event α) : Bool := e.view.isSome

def previous? (e : Event α) : Option α := e.aftermath.bind (·.previous)

def postSize? (e : Event α) : Option Nat := e.aftermath.map (·.postSize)

def modified? (e : Event α) : Option Bool := e.aftermath.map (·.modified)

/-- The number of values of a machine word; differences of sizes are taken in it. -/
def wordSize : Nat := Nat.pow 2 64

/-- The size after less the size before, as a signed machine word. -/
def sizeChange? (e : Event α) : Option Int :=
  e.aftermath.map fun a => Int.bmod ((a.postSize : Int) - (e.preSize : Int)) wordSize

def before (observed : ContainerId) (handler : HandlerRef) (m : Modification α)
    (view : Option Viewpoint) (size : Nat) : Event α :=
  { observed, handler, modification := m, view, preSize := size, aftermath := none }

/-- The event raised after a modification, whose position is already in root coordinates. -/
def after [ObjectIdentity α] (observed : ContainerId) (handler : HandlerRef) (offset : Nat)
    (c : Completion α) (view : Option Viewpoint) (preSize postSize : Nat) : Event α :=
  { observed, handler, modification := c.modification.shift offset, view, preSize
    aftermath := some { previous := c.previous?, postSize, modified := c.modified } }

end Event

end WatchedContainers
