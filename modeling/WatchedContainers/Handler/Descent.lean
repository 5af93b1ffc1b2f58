import Mathlib.Logic.Relation
import WatchedContainers.Handler.Calls
import WatchedContainers.Handler.Listeners

/-!
# Descent of views

A tree of handlers grows from one bound root: views are made of its members, members are bound,
modifications are proposed and concluded at them, and listeners come and go.  The tree knows of each
member how it descends from the root, and the size given with the last proposal at any of them.
-/

namespace WatchedContainers

variable {ρ σ α : Type}

/-- How a view was made of the handler above it. -/
inductive Link where
  | range (start : Nat)
  | keyed
deriving DecidableEq

/-- Where the last view of a descent starts.  The last link stands in front. -/
def Link.offset : List Link → Nat
  | [] => 0
  | range start :: above => start + offset above
  | keyed :: _ => 0

/-- A handler and its descent from the root. -/
structure Member where
  handler : HandlerRef
  descent : List Link
deriving DecidableEq

namespace Member

def offset (m : Member) : Nat := Link.offset m.descent

def view? (m : Member) (id : ContainerId) : Option Viewpoint :=
  if m.descent = [] then none else some ⟨id, m.offset⟩

end Member

structure HandlerTree (ρ σ : Type) where
  world : World ρ σ
  members : List Member
  /-- The size given with the last proposal. -/
  lastSize : Nat

namespace HandlerTree

def sapling (root : HandlerRef) (w : World ρ σ) : HandlerTree ρ σ := ⟨w, [⟨root, []⟩], 0⟩

/-- What can happen to the tree while its root lives.  What happens elsewhere spares the root. -/
inductive Step [DecidableEq ρ] [ObjectIdentity α] (obs : Observers ρ σ α) (root : HandlerRef) :
    HandlerTree ρ σ → HandlerTree ρ σ → Prop
  | rangeView (t : HandlerTree ρ σ) (m : Member) (start stop : Nat) (ref : HandlerRef)
      (w : World ρ σ) (hm : m ∈ t.members)
      (hview : t.world.makeRangeView obs m.handler start stop = (.ok ref, w)) :
      Step obs root t ⟨w, ⟨ref, .range start :: m.descent⟩ :: t.members, t.lastSize⟩
  | keyedView (t : HandlerTree ρ σ) (m : Member) (ref : HandlerRef) (w : World ρ σ)
      (hm : m ∈ t.members) (hview : t.world.makeKeyedView obs m.handler = (.ok ref, w)) :
      Step obs root t ⟨w, ⟨ref, .keyed :: m.descent⟩ :: t.members, t.lastSize⟩
  | bind (t : HandlerTree ρ σ) (h : HandlerRef) (id : ContainerId) (caps : Capabilities) :
      Step obs root t { t with world := (t.world.bind obs h id caps).2 }
  | propose (t : HandlerTree ρ σ) (m : Member) (p : Modification α) (size : Nat) (answer : Bool)
      (w : World ρ σ) (hm : m ∈ t.members)
      (hpropose : t.world.propose obs m.handler p size = (.ok answer, w)) :
      Step obs root t { t with world := w, lastSize := size }
  | conclude (t : HandlerTree ρ σ) (m : Member) (c : Completion α) (size : Nat) (w : World ρ σ)
      (hm : m ∈ t.members) (hconclude : t.world.conclude obs m.handler c size = (.ok (), w)) :
      Step obs root t { t with world := w }
  | addListener (t : HandlerTree ρ σ) (h : HandlerRef) (p : Phase) (l : ρ) (mask : Mask) :
      Step obs root t { t with world := (t.world.addListener obs h p l mask).2 }
  | removeListener (t : HandlerTree ρ σ) (h : HandlerRef) (p : Phase) (l : ρ) :
      Step obs root t { t with world := (t.world.removeListener obs h p l).2 }
  | elsewhere (t : HandlerTree ρ σ) (w : World ρ σ) (hw : World.Spares root t.world w) :
      Step obs root t { t with world := w }

/-- The tree that grows from the root of the world `w`. -/
def Grows [DecidableEq ρ] [ObjectIdentity α] (obs : Observers ρ σ α) (root : HandlerRef)
    (w : World ρ σ) (t : HandlerTree ρ σ) : Prop :=
  Relation.ReflTransGen (Step obs root) (sapling root w) t

end HandlerTree

end WatchedContainers
