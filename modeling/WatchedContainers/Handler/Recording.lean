import WatchedContainers.Handler.Dispatch
import WatchedContainers.Handler.Judge

/-!
# Recordings

A record of the calls of the root's hooks is kept beside the outside of a world.  The parties know
nothing of it: they do what they would do without it, and the call with its answer is written down.

The shadow of a recorded world keeps its handlers and takes the record for all that lies outside.
In it a judge stands for every party.
-/

namespace WatchedContainers

variable {ρ σ π τ α : Type}

/-- A world with a record of the calls of the root's hooks, oldest first. -/
abbrev RecordedWorld (ρ σ α : Type) := World ρ (σ × List (Heard α))

namespace World

/-- The same handlers, with other hooks and another outside. -/
def map (f : σ → τ) (g : Array (Hooks ρ) → Array (Hooks π)) (w : World ρ σ) : World π τ where
  nextId := w.nextId
  handlers := w.handlers
  hooks := g w.hooks
  outside := f w.outside

def withOutside (w : World ρ σ) (x : τ) : World ρ τ := w.map (fun _ => x) id

def record (w : RecordedWorld ρ σ α) : List (Heard α) := w.outside.2

def unrecorded (w : RecordedWorld ρ σ α) : World ρ σ := w.map Prod.fst id

end World

/-- A judge in the place of a party. -/
def Hooks.shade : Hooks ρ → Hooks Unit
  | policy _ => .policy ()
  | _ => .acceptAll

/-- The world as it looks to the containers, and what was heard in it. -/
def World.shadow (w : RecordedWorld ρ σ α) : HeardWorld α := w.map Prod.snd (·.map Hooks.shade)

/-- The same parties, and a record of their calls. -/
def Observers.recording (obs : Observers ρ σ α) : Observers ρ (σ × List (Heard α)) α where
  decide party e w :=
    let (b, w') := obs.decide party e w.unrecorded
    (b, w'.withOutside (w'.outside, w.record ++ [.asked e b]))
  notify party e w :=
    let w' := obs.notify party e w.unrecorded
    w'.withOutside (w'.outside, w.record ++ [.told e])
  trace t x := (obs.trace t x.1, x.2)
  note c x := (obs.note c x.1, x.2)

/-- The same parties, but for one that hands its calls over to the hooks at `ref`.  In its name
managed hooks are recorded like any other. -/
def Observers.delegating [DecidableEq ρ] (obs : Observers ρ σ α) (stand : ρ) (ref : HooksRef) :
    Observers ρ σ α where
  decide party e w :=
    if party = stand then (w.hooksAt ref).decide obs e w else obs.decide party e w
  notify party e w :=
    if party = stand then (w.hooksAt ref).notify obs e w else obs.notify party e w
  trace := obs.trace
  note := obs.note

end WatchedContainers
