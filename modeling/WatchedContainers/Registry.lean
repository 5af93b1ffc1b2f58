import WatchedContainers.Handler.Listeners

/-!
# Factories and their registry

What a listener value means is decided by factories.  A registry asks its factories, the latest
one first, to turn the value into root hooks, and the first answer counts.  Without a listener
value no factory is asked and the root gets managed hooks without listeners.
-/

namespace WatchedContainers

variable {ρ σ ν α : Type}

/-- What a listener value holds.  Values from `ν` mean something to special factories only. -/
inductive ListenerValue (ρ ν : Type) where
  | listeners (pair : ListenerPair ρ)
  | hooks (ref : HooksRef)
  | other (value : ν)

/-- A listener value together with the name of its type. -/
structure Listener (ρ ν : Type) where
  value : ListenerValue ρ ν
  typeName : String

def Listener.text (l : Listener ρ ν) : String :=
  Text.openRecord "Listener" [("type_name", describe l.typeName)]

/-- Turns a listener value into hooks for a container, or declines. -/
structure Factory (ρ σ ν : Type) where
  create : ContainerId → Listener ρ ν → Config → World ρ σ → Option HooksRef × World ρ σ

namespace Factory

def ofListeners (obs : Observers ρ σ α) : Factory ρ σ ν where
  create _ l config w :=
    match l.value with
    | .listeners s => let (ref, w) := w.hooksWithListener obs config s; (some ref, w)
    | _ => (none, w)

def readyMade : Factory ρ σ ν where
  create _ l _ w :=
    match l.value with
    | .hooks ref => (some ref, w)
    | _ => (none, w)

end Factory

/-- Factories in the order of their registration. -/
structure Registry (ρ σ ν : Type) where
  factories : List (Factory ρ σ ν) := []

namespace Registry

def empty : Registry ρ σ ν := {}

def append (r : Registry ρ σ ν) (f : Factory ρ σ ν) : Registry ρ σ ν := ⟨r.factories ++ [f]⟩

def register (obs : Observers ρ σ α) (element : String) (r : Registry ρ σ ν)
    (f : Factory ρ σ ν) (w : World ρ σ) : Registry ρ σ ν × World ρ σ :=
  (r.append f, w.emit obs (.factoryAdded element (r.factories.length + 1)))

def standardFactories (obs : Observers ρ σ α) : List (Factory ρ σ ν) :=
  [Factory.readyMade, Factory.ofListeners obs]

def ask (container : ContainerId) (l : Listener ρ ν) (config : Config) :
    List (Factory ρ σ ν) → World ρ σ → Option HooksRef × World ρ σ
  | [], w => (none, w)
  | f :: rest, w =>
    match f.create container l config w with
    | (some ref, w) => (some ref, w)
    | (none, w) => ask container l config rest w

/-- An unbound root handler for a container, with the hooks that the listener value stands for. -/
def resolve (obs : Observers ρ σ α) (r : Registry ρ σ ν) (container : ContainerId)
    (listener : Option (Listener ρ ν)) (config : Config) (w : World ρ σ) :
    Except Error HandlerRef × World ρ σ :=
  match listener with
  | none => let (h, w) := w.newRoot (.managed { config }) config; (.ok h, w)
  | some l =>
    match ask container l config r.factories.reverse w with
    | (some ref, w) => let (h, w) := w.rootOver ref config; (.ok h, w)
    | (none, w) =>
      (.error (.unrecognizedListener l.typeName),
        w.emit obs (.listenerUnknown container l.typeName))

end Registry

end WatchedContainers
