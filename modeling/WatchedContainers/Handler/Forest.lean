import Mathlib.Logic.Relation
import WatchedContainers.Handler.Calls
import WatchedContainers.Handler.Listeners

/-!
# Forests of handlers

A forest has any number of roots with views below them.  Everyone who can reach a handler holds a
handle on it; handles are taken and dropped in any order.  A view keeps no handle on its root, and
none on the handler it was made of.

A ledger is kept beside what lies outside.  It says which handles are out and how the handlers came
about, and nothing in the handlers depends on it.

A call at a handler holds a handle on the root while it lasts.  The parties that are called may deal
with the forest themselves: they make views, take and drop handles, and call handlers again.
-/

namespace WatchedContainers

variable {ρ σ α : Type}

/-- The handles that are out, and how the handlers came about. -/
structure Ledger where
  /-- One entry for each handle that somebody holds. -/
  held : List HandlerRef := []
  /-- One entry for each handle that a call holds while it lasts. -/
  lent : List HandlerRef := []
  roots : List HandlerRef := []
  /-- Every view with the handler it was made of. -/
  views : List (HandlerRef × HandlerRef) := []
deriving DecidableEq

namespace Ledger

def out (l : Ledger) : List HandlerRef := l.held ++ l.lent

def withRoot (r : HandlerRef) (l : Ledger) : Ledger :=
  { l with held := r :: l.held, roots := r :: l.roots }

/-- The view `h` was made of `parent`, and its maker holds a handle on it. -/
def withView (h parent : HandlerRef) (l : Ledger) : Ledger :=
  { l with held := h :: l.held, views := (h, parent) :: l.views }

/-- The handler `h` is `a`, or was made of it through any number of views. -/
def Stems (l : Ledger) : HandlerRef → HandlerRef → Prop :=
  Relation.ReflTransGen fun x y => (x, y) ∈ l.views

/-- The handler `h` is a view below the root `r`. -/
structure ViewOf (l : Ledger) (h r : HandlerRef) : Prop where
  view : ∃ parent, (h, parent) ∈ l.views
  root : r ∈ l.roots
  stems : l.Stems h r

end Ledger

abbrev LedgerWorld (ρ σ : Type) := World ρ (σ × Ledger)

namespace World

def ledger (w : LedgerWorld ρ σ) : Ledger := w.outside.2

def enter (f : Ledger → Ledger) (w : LedgerWorld ρ σ) : LedgerWorld ρ σ :=
  { w with outside := (w.outside.1, f w.outside.2) }

def take (h : HandlerRef) (w : LedgerWorld ρ σ) : LedgerWorld ρ σ :=
  (w.retain h).enter fun l => { l with held := h :: l.held }

def drop (h : HandlerRef) (w : LedgerWorld ρ σ) : LedgerWorld ρ σ :=
  (w.release h).enter fun l => { l with held := l.held.erase h }

/-- A call takes a handle on `h`. -/
def lend (h : HandlerRef) (w : LedgerWorld ρ σ) : LedgerWorld ρ σ :=
  (w.retain h).enter fun l => { l with lent := h :: l.lent }

def reclaim (h : HandlerRef) (w : LedgerWorld ρ σ) : LedgerWorld ρ σ :=
  (w.release h).enter fun l => { l with lent := l.lent.erase h }

/-- A call at the handler `h`, which holds a handle on the root while it lasts. -/
def during {β : Type} (h : HandlerRef) (call : LedgerWorld ρ σ → β × LedgerWorld ρ σ)
    (w : LedgerWorld ρ σ) : β × LedgerWorld ρ σ :=
  match w.root? h with
  | none => call w
  | some r => let (b, w') := call (w.lend r); (b, w'.reclaim r)

/-- There are no handlers yet, so there are no handles. -/
structure Bare (w : LedgerWorld ρ σ) : Prop where
  handlers : w.handlers = #[]
  ledger : w.ledger = {}

end World

/-- Traces neither see nor change the ledger. -/
def Observers.Clerical (obs : Observers ρ (σ × Ledger) α) : Prop :=
  ∀ t x l, obs.trace t (x, l) = ((obs.trace t (x, {})).1, l)

/-- One thing that somebody does with the forest who can reach the handlers it takes.  Proposals
and conclusions are answered by one of the parties `inner`. -/
inductive World.Dealing [DecidableEq ρ] [ObjectIdentity α]
    (inner : Observers ρ (σ × Ledger) α → Prop) : LedgerWorld ρ σ → LedgerWorld ρ σ → Prop
  | root (w : LedgerWorld ρ σ) (hooks : HooksRef) (config : Config) :
      Dealing inner w
        ((w.rootOver hooks config).2.enter (.withRoot (w.rootOver hooks config).1))
  | rangeView (obs : Observers ρ (σ × Ledger) α) (hobs : obs.Clerical) (w w' : LedgerWorld ρ σ)
      (h ref : HandlerRef) (start stop : Nat) (hh : h ∈ w.ledger.out)
      (hview : w.makeRangeView obs h start stop = (.ok ref, w')) :
      Dealing inner w (w'.enter (.withView ref h))
  | keyedView (obs : Observers ρ (σ × Ledger) α) (hobs : obs.Clerical) (w w' : LedgerWorld ρ σ)
      (h ref : HandlerRef) (hh : h ∈ w.ledger.out)
      (hview : w.makeKeyedView obs h = (.ok ref, w')) :
      Dealing inner w (w'.enter (.withView ref h))
  | bind (obs : Observers ρ (σ × Ledger) α) (hobs : obs.Clerical) (w : LedgerWorld ρ σ)
      (h : HandlerRef) (id : ContainerId) (caps : Capabilities) (hh : h ∈ w.ledger.out) :
      Dealing inner w (w.bind obs h id caps).2
  | take (w : LedgerWorld ρ σ) (h : HandlerRef) (hh : h ∈ w.ledger.held) :
      Dealing inner w (w.take h)
  | drop (w : LedgerWorld ρ σ) (h : HandlerRef) (hh : h ∈ w.ledger.held) :
      Dealing inner w (w.drop h)
  /-- Somebody asks a handler for its root. -/
  | findRoot (w : LedgerWorld ρ σ) (h r : HandlerRef) (hh : h ∈ w.ledger.out)
      (hr : w.root? h = some r) : Dealing inner w (w.take r)
  | propose (obs : Observers ρ (σ × Ledger) α) (hobs : inner obs) (w : LedgerWorld ρ σ)
      (h : HandlerRef) (m : Modification α) (size : Nat) (hh : h ∈ w.ledger.out) :
      Dealing inner w (w.during h (·.propose obs h m size)).2
  | conclude (obs : Observers ρ (σ × Ledger) α) (hobs : inner obs) (w : LedgerWorld ρ σ)
      (h : HandlerRef) (c : Completion α) (size : Nat) (hh : h ∈ w.ledger.out) :
      Dealing inner w (w.during h (·.conclude obs h c size)).2
  | addListener (obs : Observers ρ (σ × Ledger) α) (hobs : obs.Clerical) (w : LedgerWorld ρ σ)
      (h : HandlerRef) (p : Phase) (l : ρ) (mask : Mask) (hh : h ∈ w.ledger.out) :
      Dealing inner w (w.addListener obs h p l mask).2
  | removeListener (obs : Observers ρ (σ × Ledger) α) (hobs : obs.Clerical)
      (w : LedgerWorld ρ σ) (h : HandlerRef) (p : Phase) (l : ρ) (hh : h ∈ w.ledger.out) :
      Dealing inner w (w.removeListener obs h p l).2
  /-- What is no dealing with handlers: hooks are made or changed, identities are taken. -/
  | elsewhere (w w' : LedgerWorld ρ σ) (hhandlers : w'.handlers = w.handlers)
      (hledger : w'.ledger = w.ledger) : Dealing inner w w'

namespace Observers

/-- Whatever a party does when it is called is a sequence of dealings. -/
structure DealsBy (dealing : LedgerWorld ρ σ → LedgerWorld ρ σ → Prop)
    (obs : Observers ρ (σ × Ledger) α) : Prop where
  clerical : obs.Clerical
  decide : ∀ party e w, Relation.ReflTransGen dealing w (obs.decide party e w).2
  notify : ∀ party e w, Relation.ReflTransGen dealing w (obs.notify party e w)

/-- Parties that deal with the forest from inside their own calls, nested up to `depth` deep. -/
def Deals [DecidableEq ρ] [ObjectIdentity α] : Nat → Observers ρ (σ × Ledger) α → Prop
  | 0 => DealsBy (World.Dealing (α := α) fun _ => False)
  | depth + 1 => DealsBy (World.Dealing (Deals depth))

end Observers

/-- Any number of dealings, answered by parties that deal themselves. -/
def World.Unfolds [DecidableEq ρ] (α : Type) [ObjectIdentity α] (depth : Nat) :
    LedgerWorld ρ σ → LedgerWorld ρ σ → Prop :=
  Relation.ReflTransGen (Dealing (Observers.Deals (α := α) depth))

end WatchedContainers
