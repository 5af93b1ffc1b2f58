import WatchedContainers.Handler.Hooks
import WatchedContainers.Handler.Trace
import WatchedContainers.Container.Basic

/-!
# The world of handlers

Handlers and hooks are objects with a state of their own, so they live in a `World` and are named
by reference.  A handler is a root, which owns hooks, or a view, which knows its root and nothing
of the views between.  It serves no container until it is bound, and it is bound once.

The world also counts the handles on every handler.  A view can reach its root as long as there is
a handle on the root; its own handles, and those on other views, do not matter for that.

What lies outside is a value of any type `σ`, and what the outside parties do when they are called
is an arbitrary function on the world (`Observers`): a party may call the handlers again.
-/

namespace WatchedContainers

inductive Role where
  | root (hooks : HooksRef)
  | range (root : HandlerRef) (offset : Nat)
  | keyed (root : HandlerRef)
deriving DecidableEq

/-- The container, or view, that a handler serves. -/
structure Binding where
  container : ContainerId
  capabilities : Capabilities
deriving DecidableEq

structure Handler where
  role : Role
  binding : Option Binding := none
  /-- How many views lie between this handler and the root. -/
  depth : Nat := 0
  config : Config := {}
  /-- At a root, the size given with the last proposal. -/
  preSize : Nat := 0
  handles : Nat := 1
deriving DecidableEq

namespace Handler

def container? (h : Handler) : Option ContainerId := h.binding.map (·.container)

def isBound (h : Handler) : Bool := h.binding.isSome

def capabilities (h : Handler) : Capabilities :=
  match h.binding with
  | some b => b.capabilities
  | none => .empty

def raisable (h : Handler) : Mask := .ofCapabilities h.capabilities

def isRoot (h : Handler) : Bool :=
  match h.role with
  | .root _ => true
  | _ => false

def isView (h : Handler) : Bool := !h.isRoot

def viewOffset (h : Handler) : Nat :=
  match h.role with
  | .range _ offset => offset
  | _ => 0

def roleName (h : Handler) : String :=
  match h.role with
  | .root _ => "Root"
  | .range _ _ => "RangeView"
  | .keyed _ => "KeyedView"

def text (h : Handler) : String :=
  Text.record "Handler"
    [("kind", describe h.roleName),
      ("container", Text.option (h.container?.map (·.debugText))),
      ("view_offset", describe h.viewOffset), ("depth", describe h.depth)]

/-- What a reference to no handler reads as. -/
def missing : Handler := { role := .root ⟨0⟩, handles := 0 }

end Handler

structure World (ρ σ : Type) where
  /-- The number of the next identity. -/
  nextId : Nat := 1
  handlers : Array Handler := #[]
  hooks : Array (Hooks ρ) := #[]
  outside : σ

/-- What the outside parties do when they are asked or told, and what is done with traces and
with the notes of containers. -/
structure Observers (ρ σ α : Type) where
  decide : ρ → Event α → World ρ σ → Bool × World ρ σ
  notify : ρ → Event α → World ρ σ → World ρ σ
  trace : Trace α → σ → σ
  note : Call → σ → σ

namespace World

variable {ρ σ α : Type}

/-! ### Access -/

def handler (w : World ρ σ) (h : HandlerRef) : Handler := w.handlers.getD h.index .missing

def hooksAt (w : World ρ σ) (h : HooksRef) : Hooks ρ := w.hooks.getD h.index .acceptAll

def modifyHandler (w : World ρ σ) (h : HandlerRef) (f : Handler → Handler) : World ρ σ :=
  { w with handlers := w.handlers.modify h.index f }

def setHooks (w : World ρ σ) (h : HooksRef) (hooks : Hooks ρ) : World ρ σ :=
  { w with hooks := w.hooks.setIfInBounds h.index hooks }

def emit (obs : Observers ρ σ α) (t : Trace α) (w : World ρ σ) : World ρ σ :=
  { w with outside := obs.trace t w.outside }

def collect (obs : Observers ρ σ α) (calls : List Call) (w : World ρ σ) : World ρ σ :=
  { w with outside := calls.foldl (fun s c => obs.note c s) w.outside }

/-! ### New objects -/

def freshId (w : World ρ σ) : ContainerId × World ρ σ :=
  (⟨w.nextId⟩, { w with nextId := w.nextId + 1 })

def addHooks (hooks : Hooks ρ) (w : World ρ σ) : HooksRef × World ρ σ :=
  (⟨w.hooks.size⟩, { w with hooks := w.hooks.push hooks })

def addHandler (h : Handler) (w : World ρ σ) : HandlerRef × World ρ σ :=
  (⟨w.handlers.size⟩, { w with handlers := w.handlers.push h })

def rootOver (hooks : HooksRef) (config : Config) (w : World ρ σ) : HandlerRef × World ρ σ :=
  w.addHandler { role := .root hooks, config }

def newRoot (hooks : Hooks ρ) (config : Config) (w : World ρ σ) : HandlerRef × World ρ σ :=
  let (ref, w) := w.addHooks hooks
  w.rootOver ref config

/-! ### Handles -/

/-- One more handle.  A handler without handles is gone and stays so. -/
def retain (h : HandlerRef) (w : World ρ σ) : World ρ σ :=
  w.modifyHandler h fun x => if x.handles = 0 then x else { x with handles := x.handles + 1 }

def release (h : HandlerRef) (w : World ρ σ) : World ρ σ :=
  w.modifyHandler h fun x => { x with handles := x.handles - 1 }

def isLive (w : World ρ σ) (h : HandlerRef) : Bool := (w.handler h).handles != 0

end World

end WatchedContainers
