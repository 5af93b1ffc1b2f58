import Mathlib.Logic.Relation
import WatchedContainers.Watched.Session

/-!
# Registries in a program

A registry is shared, and anybody may register a factory at any time, even a factory that is being
asked.  So the list of factories is never changed: a registration copies it, appends to the copy and
puts the copy in its place.  Whoever holds a list that was current once still reads what it read
then.

The lists live on a shelf beside what lies outside.  Factories are named by `φ`, and `make` says
what they do; they may register others and take identities.
-/

namespace WatchedContainers

variable {ρ σ ν φ α : Type}

/-- Snapshots of a registry.  They are added and never removed, and one of them is current. -/
structure Shelf (φ : Type) where
  snapshots : Array (List φ) := #[[]]
  current : Nat := 0
  current_lt : current < snapshots.size := by decide

namespace Shelf

def read (s : Shelf φ) (i : Nat) : List φ := s.snapshots.getD i []

def registered (s : Shelf φ) : List φ := s.read s.current

/-- Appends to a copy of the current snapshot, and the copy becomes current. -/
def register (s : Shelf φ) (f : φ) : Shelf φ where
  snapshots := s.snapshots.push (s.registered ++ [f])
  current := s.snapshots.size
  current_lt := by simp

end Shelf

/-- A world with the shelf of one registry. -/
abbrev ShelvedWorld (ρ σ φ : Type) := World ρ (σ × Shelf φ)

namespace World

def shelf (w : ShelvedWorld ρ σ φ) : Shelf φ := w.outside.2

def withShelf (f : Shelf φ → Shelf φ) (w : ShelvedWorld ρ σ φ) : ShelvedWorld ρ σ φ :=
  { w with outside := (w.outside.1, f w.outside.2) }

variable (make : φ → Factory ρ (σ × Shelf φ) ν)

def registry (w : ShelvedWorld ρ σ φ) : Registry ρ (σ × Shelf φ) ν :=
  ⟨w.shelf.registered.map make⟩

/-- Registers a factory.  Traces of it are made when it is registered. -/
def shelve (obs : Observers ρ (σ × Shelf φ) α) (element : String) (w : ShelvedWorld ρ σ φ)
    (f : φ) : ShelvedWorld ρ σ φ :=
  ((w.registry make).register obs element (make f) (w.withShelf (·.register f))).2

/-- Identities that were taken stay taken and factories that were registered stay registered; there
may be more of both. -/
structure Onward (w w' : ShelvedWorld ρ σ φ) : Prop where
  nextId_le : w.nextId ≤ w'.nextId
  shelf : ∃ fs : List φ, w'.shelf = fs.foldl Shelf.register w.shelf

end World

/-- What the parties do when they are called leads onward, and traces and notes do not deal with the
registry. -/
structure Observers.Onward (obs : Observers ρ (σ × Shelf φ) α) : Prop where
  decide : ∀ party e w, World.Onward w (obs.decide party e w).2
  notify : ∀ party e w, World.Onward w (obs.notify party e w)
  trace : ∀ t x, (obs.trace t x).2 = x.2
  note : ∀ c x, (obs.note c x).2 = x.2

def Factory.Onward (f : Factory ρ (σ × Shelf φ) ν) : Prop :=
  ∀ container l config w, World.Onward w (f.create container l config w).2

/-! ### Programs -/

def Frame.id? {κ : Type} : Frame κ α → Option ContainerId
  | .subList v => some v.id
  | .sortedView v => some v.id
  | _ => none

namespace World

/-- One thing that a program does, and the identity that it gave to a container or a view. -/
inductive Advances [ObjectIdentity α] (make : φ → Factory ρ (σ × Shelf φ) ν)
    (obs : Observers ρ (σ × Shelf φ) α) :
    Option ContainerId → ShelvedWorld ρ σ φ → ShelvedWorld ρ σ φ → Prop
  | shelve (w : ShelvedWorld ρ σ φ) (element : String) (f : φ) :
      Advances make obs none w (w.shelve make obs element f)
  | resolve (w : ShelvedWorld ρ σ φ) (container : ContainerId) (listener : Option (Listener ρ ν))
      (config : Config) :
      Advances make obs none w ((w.registry make).resolve obs container listener config w).2
  | withListener {C : Type} [Collection C α] (inner : C) (listener : Option (Listener ρ ν))
      (config : Config) (r : Except Error (Watched C)) (w w' : ShelvedWorld ρ σ φ)
      (h : Watched.withListener obs (w.registry make) inner listener config w = (r, w')) :
      Advances make obs (r.toOption.map (·.id)) w w'
  | withRoot {C : Type} [Collection C α] (inner : C) (handler : HandlerRef)
      (r : Except Error (Watched C)) (w w' : ShelvedWorld ρ σ φ)
      (h : Watched.withRoot obs inner handler w = (r, w')) :
      Advances make obs (r.toOption.map (·.id)) w w'
  | openFrame {C κ : Type} [Collection C α] [Traversal C κ α] [BEq α] [Noting C]
      (fam : Family C κ α) (o : Opening α) (s : Session C κ α) (f : Frame κ α)
      (w w' : ShelvedWorld ρ σ φ)
      (h : s.act obs fam (.openFrame o) w = some (.ok .nothing, s.push f, w')) :
      Advances make obs f.id? w w'
  /-- Any action; the identities of views are said in `openFrame`. -/
  | act {C κ : Type} [Collection C α] [Traversal C κ α] [BEq α] [Noting C] (fam : Family C κ α)
      (a : Action α) (s s' : Session C κ α) (r : Except Error (Response α))
      (w w' : ShelvedWorld ρ σ φ) (h : s.act obs fam a w = some (r, s', w')) :
      Advances make obs none w w'
  /-- Whatever is done with other things than these. -/
  | elsewhere (w w' : ShelvedWorld ρ σ φ) (h : w.Onward w') : Advances make obs none w w'

/-- What a program does, from one world to the other. -/
def Reaches [ObjectIdentity α] (make : φ → Factory ρ (σ × Shelf φ) ν)
    (obs : Observers ρ (σ × Shelf φ) α) : ShelvedWorld ρ σ φ → ShelvedWorld ρ σ φ → Prop :=
  Relation.ReflTransGen fun w w' => ∃ given, Advances make obs given w w'

end World

end WatchedContainers
