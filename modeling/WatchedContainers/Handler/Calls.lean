import WatchedContainers.Handler.Dispatch

/-!
# Calls of the root's hooks

`ask` and `tell` are the two calls that the hooks of a root get, one before a modification and one
after it.

The parties behind the hooks may do what they like when they are called.  A loyal party leaves
the handlers that exist in their places.  A discreet party makes no proposals at the root either,
so the root still remembers the size of its own.
-/

namespace WatchedContainers

variable {ρ σ α : Type}

namespace World

/-! ### One call -/

/-- The root remembers the size of the event `e` and is about to ask its hooks. -/
def poised (obs : Observers ρ σ α) (root : HandlerRef) (e : Event α) (w : World ρ σ) :
    World ρ σ :=
  (w.modifyHandler root fun x => { x with preSize := e.preSize }).emit obs (.dispatching e)

def ask (obs : Observers ρ σ α) (root : HandlerRef) (e : Event α) (w : World ρ σ) :
    Bool × World ρ σ :=
  match ((w.poised obs root e).hooksOfRoot root).decide obs e (w.poised obs root e) with
  | (true, w) => (true, w)
  | (false, w) => (false, w.emit obs (.vetoed e.kind e.observed))

def tell (obs : Observers ρ σ α) (root : HandlerRef) (e : Event α) (w : World ρ σ) : World ρ σ :=
  let w := w.emit obs (.dispatching e)
  (w.hooksOfRoot root).notify obs e w

/-! ### What calls leave alone -/

/-- The handlers that exist stay what they are, the bound ones stay bound, fixed policies stay, and
the root stays alive. -/
structure Keeps (root : HandlerRef) (w w' : World ρ σ) : Prop where
  size_le : w.handlers.size ≤ w'.handlers.size
  role : ∀ h : HandlerRef, h.index < w.handlers.size → (w'.handler h).role = (w.handler h).role
  binding : ∀ h, (w.handler h).isBound → (w'.handler h).binding = (w.handler h).binding
  policy : ∀ ref party, w.hooksAt ref = .policy party → w'.hooksAt ref = .policy party
  live : w.isLive root → w'.isLive root

/-- The root remembers the same size, besides. -/
structure Spares (root : HandlerRef) (w w' : World ρ σ) : Prop extends Keeps root w w' where
  preSize : (w'.handler root).preSize = (w.handler root).preSize

end World

namespace Observers

/-- No party removes or rebinds a handler, and none drops the root. -/
structure Loyal (obs : Observers ρ σ α) (root : HandlerRef) : Prop where
  decide : ∀ party e w, World.Keeps root w (obs.decide party e w).2
  notify : ∀ party e w, World.Keeps root w (obs.notify party e w)

/-- Parties that are loyal and make no proposals at the root. -/
structure Discreet (obs : Observers ρ σ α) (root : HandlerRef) : Prop where
  decide : ∀ party e w, World.Spares root w (obs.decide party e w).2
  notify : ∀ party e w, World.Spares root w (obs.notify party e w)

theorem Discreet.loyal {obs : Observers ρ σ α} {root : HandlerRef} (hd : obs.Discreet root) :
    obs.Loyal root where
  decide party e w := (hd.decide party e w).toKeeps
  notify party e w := (hd.notify party e w).toKeeps

end Observers

end WatchedContainers
