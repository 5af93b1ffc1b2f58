import WatchedContainers.Config
import WatchedContainers.Event.Basic

/-!
# Hooks

What a root handler does with its events.  Hooks either accept everything, or follow a fixed
policy, or manage listeners: a list for each phase, and every listener in it registered with the
mask of the kinds it wants to hear of.  Listeners and policies are outside parties and stand here
as names from `ρ`.
-/

namespace WatchedContainers

structure Registration (ρ : Type) where
  listener : ρ
  mask : Mask
deriving DecidableEq

/-- Two independent lists of listeners, in the order of their registration. -/
structure ManagedHooks (ρ : Type) where
  pre : List (Registration ρ) := []
  post : List (Registration ρ) := []
  config : Config := {}

inductive Hooks (ρ : Type) where
  | acceptAll
  | policy (party : ρ)
  | managed (hooks : ManagedHooks ρ)

/-- A listener value: at most one listener for each phase, with the mask for both. -/
structure ListenerPair (ρ : Type) where
  pre : Option ρ := none
  post : Option ρ := none
  mask : Option Mask := none

namespace Registration

variable {ρ : Type}

/-- The listeners that hear of events of kind `k`. -/
def hearing (k : Kind) (rs : List (Registration ρ)) : List ρ :=
  (rs.filter fun r => r.mask.covers k).map (·.listener)

def without [DecidableEq ρ] (l : ρ) (rs : List (Registration ρ)) : List (Registration ρ) :=
  rs.filter fun r => r.listener ≠ l

end Registration

namespace ManagedHooks

variable {ρ : Type}

def registered (h : ManagedHooks ρ) : Phase → List (Registration ρ)
  | .pre => h.pre
  | .post => h.post

def withRegistered (h : ManagedHooks ρ) (p : Phase) (rs : List (Registration ρ)) :
    ManagedHooks ρ :=
  match p with
  | .pre => { h with pre := rs }
  | .post => { h with post := rs }

theorem registered_withRegistered (h : ManagedHooks ρ) (p q : Phase)
    (rs : List (Registration ρ)) :
    (h.withRegistered p rs).registered q = if p = q then rs else h.registered q := by
  cases p <;> cases q <;> rfl

def text (h : ManagedHooks ρ) : String :=
  Text.record "StandardHooks"
    [("pre_listeners", describe h.pre.length), ("post_listeners", describe h.post.length),
      ("config", h.config.text)]

end ManagedHooks

end WatchedContainers
