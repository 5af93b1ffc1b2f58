import Mathlib.Logic.Relation
import WatchedContainers.Handler.Calls

/-!
# Re-entrance

A party that is called may call the handlers before it returns: it may propose and conclude
modifications at any of them, with any sizes.  These calls reach the hooks again, and the parties
that answer them may do the same, to any depth.

The parties keep the traces in what lies outside, as a function `log` shows.  So the traces tell
which proposals reached a root, the nested ones too.
-/

namespace WatchedContainers

variable {ρ σ α : Type}

namespace Trace

/-- The size given with a proposal, if the trace tells of one that reached the root. -/
def proposedSize? (root : HandlerRef) : Trace α → Option Nat
  | dispatching e => if e.isPre ∧ e.handler = root then some e.preSize else none
  | _ => none

/-- The size given with the last proposal that reached the root, or `size` if none did. -/
def lastSize (root : HandlerRef) (size : Nat) (calls : List (Trace α)) : Nat :=
  (calls.filterMap (proposedSize? root)).getLast?.getD size

end Trace

/-- One deed of a party while it is called.  It proposes or concludes a modification, which is
answered by one of the parties `inner`, or does anything that spares the root and is not a
proposal. -/
inductive World.Deed [ObjectIdentity α] (log : σ → List (Trace α)) (root : HandlerRef)
    (inner : Observers ρ σ α → Prop) : World ρ σ → World ρ σ → Prop
  | propose (obs : Observers ρ σ α) (hobs : inner obs) (w : World ρ σ) (h : HandlerRef)
      (m : Modification α) (size : Nat) : Deed log root inner w (w.propose obs h m size).2
  | conclude (obs : Observers ρ σ α) (hobs : inner obs) (w : World ρ σ) (h : HandlerRef)
      (c : Completion α) (size : Nat) : Deed log root inner w (w.conclude obs h c size).2
  | elsewhere (w w' : World ρ σ) (calls : List (Trace α)) (hspares : World.Spares root w w')
      (hlog : log w'.outside = log w.outside ++ calls)
      (hcalls : ∀ t ∈ calls, t.proposedSize? root = none) : Deed log root inner w w'

namespace Observers

/-- Every trace is kept, and what a party does when it is called is a sequence of deeds. -/
structure ActsBy (log : σ → List (Trace α)) (deed : World ρ σ → World ρ σ → Prop)
    (obs : Observers ρ σ α) : Prop where
  trace : ∀ t x, log (obs.trace t x) = log x ++ [t]
  decide : ∀ party e w, Relation.ReflTransGen deed w (obs.decide party e w).2
  notify : ∀ party e w, Relation.ReflTransGen deed w (obs.notify party e w)

/-- Parties that call the handlers from inside their own calls, nested up to `depth` deep. -/
def Reenters [ObjectIdentity α] (log : σ → List (Trace α)) (root : HandlerRef) :
    Nat → Observers ρ σ α → Prop
  | 0 => ActsBy log (World.Deed log root fun _ => False)
  | depth + 1 => ActsBy log (World.Deed log root (Reenters log root depth))

/-- Parties that accept everything, make no calls and keep the traces. -/
def scribe : Observers ρ (List (Trace α)) α where
  decide _ _ w := (true, w)
  notify _ _ w := w
  trace t traces := traces ++ [t]
  note _ traces := traces

/-- The same parties, but whenever one is asked it proposes the modification `m` before it
answers. -/
def proposing (obs : Observers ρ σ α) (m : Modification α) (size : Nat) : Observers ρ σ α :=
  { obs with decide := fun party e w => obs.decide party e (w.propose obs e.handler m size).2 }

end Observers

end WatchedContainers
