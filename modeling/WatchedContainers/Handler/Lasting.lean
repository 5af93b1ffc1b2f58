import Mathlib.Logic.Relation
import WatchedContainers.Handler.Panel

/-!
# What lasts

Handlers come and go, and a party that is called may ask for anything before it returns.  But a
handler that was made stays what it is: its role, its depth and its configuration never change, and
once it is bound it stays bound to the same container.  Identities that were taken stay taken.

Until it is bound, a handler can be reached by anybody who has it, and is of no use to them.
-/

namespace WatchedContainers

variable {ρ σ α : Type}

/-! ### Later worlds -/

/-- The world `w'` is later than `w`.  There may be more handlers and more identities. -/
structure World.Later (w w' : World ρ σ) : Prop where
  nextId_le : w.nextId ≤ w'.nextId
  size_le : w.handlers.size ≤ w'.handlers.size
  role : ∀ h : HandlerRef, h.index < w.handlers.size → (w'.handler h).role = (w.handler h).role
  depth : ∀ h : HandlerRef, h.index < w.handlers.size → (w'.handler h).depth = (w.handler h).depth
  config : ∀ h : HandlerRef, h.index < w.handlers.size →
    (w'.handler h).config = (w.handler h).config
  binding : ∀ h, (w.handler h).isBound → (w'.handler h).binding = (w.handler h).binding

/-- One thing that somebody does who has handlers.  Requests are answered by one of the parties
`inner`; what is done elsewhere binds no handler. -/
inductive World.Venture [DecidableEq ρ] [ObjectIdentity α] (inner : Observers ρ σ α → Prop) :
    World ρ σ → World ρ σ → Prop
  | request (obs : Observers ρ σ α) (hobs : inner obs) (x : Request ρ α) (w : World ρ σ) :
      Venture inner w (w.grant obs x).2
  | elsewhere (w w' : World ρ σ) (hlater : w.Later w')
      (hbinding : ∀ h : HandlerRef, h.index < w.handlers.size →
        (w'.handler h).binding = (w.handler h).binding) : Venture inner w w'

namespace Observers

/-- Whatever a party does when it is called is a sequence of ventures. -/
structure VenturesBy (venture : World ρ σ → World ρ σ → Prop) (obs : Observers ρ σ α) : Prop where
  decide : ∀ party e w, Relation.ReflTransGen venture w (obs.decide party e w).2
  notify : ∀ party e w, Relation.ReflTransGen venture w (obs.notify party e w)

/-- Parties that make requests from inside their own calls, nested up to `depth` deep. -/
def Ventures [DecidableEq ρ] [ObjectIdentity α] : Nat → Observers ρ σ α → Prop
  | 0 => VenturesBy (World.Venture (α := α) fun _ => False)
  | depth + 1 => VenturesBy (World.Venture (Ventures depth))

/-- Whatever a party does when it is called, the world is a later one then. -/
structure Lawful (obs : Observers ρ σ α) : Prop where
  decide : ∀ party e w, World.Later w (obs.decide party e w).2
  notify : ∀ party e w, World.Later w (obs.notify party e w)

end Observers

/-! ### Handlers that wait to be bound -/

namespace Request

def handler? : Request ρ α → Option HandlerRef
  | register h _ _ _ | unregister h _ _ | list h _ | propose h _ _ | conclude h _ _
  | rangeView h _ _ | keyedView h | bind h _ _ => some h
  | subscribe _ _ _ => none

/-- What the handler would be bound to.  An empty set of capabilities binds nothing. -/
def binding? : Request ρ α → Option Binding
  | bind _ id caps => if caps.isEmpty then none else some ⟨id, caps⟩
  | _ => none

end Request

namespace World

/-- From `w` to `w'` these requests were made of the handler `h`, in this order, and whatever else
happened did not bind it. -/
inductive Approached [DecidableEq ρ] [ObjectIdentity α] (h : HandlerRef) :
    List (Request ρ α) → World ρ σ → World ρ σ → Prop
  | refl (w : World ρ σ) : Approached h [] w w
  | request {xs : List (Request ρ α)} {w w' : World ρ σ} (hw : Approached h xs w w') (depth : Nat)
      (obs : Observers ρ σ α) (hobs : obs.Ventures depth) (x : Request ρ α)
      (hx : x.handler? = some h) : Approached h (xs ++ [x]) w (w'.grant obs x).2
  | elsewhere {xs : List (Request ρ α)} {w w' w'' : World ρ σ} (hw : Approached h xs w w')
      (hlater : w'.Later w'') (hbinding : (w''.handler h).binding = (w'.handler h).binding) :
      Approached h xs w w''

/-- What calls at the handler `h` come to as long as it is not bound, whoever would answer them. -/
structure Waits (w : World ρ σ) (α : Type) [ObjectIdentity α] (h : HandlerRef) : Prop where
  propose : ∀ (obs : Observers ρ σ α) m size, w.propose obs h m size = (.error .notBound, w)
  /-- A removal that found nothing is no event, and is well. -/
  conclude : ∀ (obs : Observers ρ σ α) c size, w.conclude obs h c size =
    match c.absent? with
    | some kind => (.ok (), w.emit obs (.nothingRemoved kind))
    | none => (.error .notBound, w)
  rangeView : ∀ (obs : Observers ρ σ α) start stop,
    w.makeRangeView obs h start stop = (.error .notBound, w)
  keyedView : ∀ obs : Observers ρ σ α, w.makeKeyedView obs h = (.error .notBound, w)

end World

end WatchedContainers
