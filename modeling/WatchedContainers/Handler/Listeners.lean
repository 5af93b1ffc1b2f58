import WatchedContainers.Handler.Tree

/-!
# Listeners of a handler

Listeners are registered with the hooks of the root, through any handler of the tree, for one of
the two phases.  Only managed hooks keep listeners.  A registration counts from the next event on;
removing a listener drops every registration of it for that phase.
-/

namespace WatchedContainers

variable {ρ σ α : Type}

namespace World

/-! ### At the hooks -/

/-- Registers a listener behind those that the managed hooks `s`, found at `ref`, have already. -/
def registerAt (obs : Observers ρ σ α) (ref : HooksRef) (s : ManagedHooks ρ) (p : Phase) (l : ρ)
    (mask : Mask) (w : World ρ σ) : World ρ σ :=
  (w.setHooks ref (.managed (s.withRegistered p (s.registered p ++ [⟨l, mask⟩])))).emit obs
    (.listenerAdded p ((s.registered p).length + 1) mask)

/-- Registers a listener if there is one and the hooks keep listeners. -/
def enrol (obs : Observers ρ σ α) (ref : HooksRef) (p : Phase) (l : Option ρ) (mask : Mask)
    (w : World ρ σ) : World ρ σ :=
  match l, w.hooksAt ref with
  | some l, .managed s => w.registerAt obs ref s p l mask
  | _, _ => w

/-- Managed hooks that carry the listeners of a listener value.  Without a mask of its own it is
registered with the one of the configuration. -/
def hooksWithListener (obs : Observers ρ σ α) (config : Config) (l : ListenerPair ρ)
    (w : World ρ σ) : HooksRef × World ρ σ :=
  let mask := l.mask.getD config.defaultMask
  let (ref, w) := w.addHooks (.managed { config })
  (ref, (w.enrol obs ref .pre l.pre mask).enrol obs ref .post l.post mask)

/-- Registers a listener with the default mask of the hooks themselves. -/
def subscribe (obs : Observers ρ σ α) (ref : HooksRef) (p : Phase) (l : ρ) (w : World ρ σ) :
    World ρ σ :=
  match w.hooksAt ref with
  | .managed s => w.registerAt obs ref s p l s.config.defaultMask
  | _ => w

/-! ### Through a handler -/

/-- Runs `f` on the managed hooks of the root; other hooks do not support `operation`. -/
def onManagedHooks {β : Type} (obs : Observers ρ σ α) (h : HandlerRef) (operation : String)
    (f : HooksRef → ManagedHooks ρ → World ρ σ → β × World ρ σ) (w : World ρ σ) :
    Except Error β × World ρ σ :=
  match w.reachHooks obs h with
  | (.error e, w) => (.error e, w)
  | (.ok ref, w) =>
    match w.hooksAt ref with
    | .managed s => let (b, w) := f ref s w; (.ok b, w)
    | _ => (.error (.notSupported operation), w)

def addListener (obs : Observers ρ σ α) (h : HandlerRef) (p : Phase) (l : ρ) (mask : Mask)
    (w : World ρ σ) : Except Error Unit × World ρ σ :=
  w.onManagedHooks obs h ("add_" ++ p.word ++ "_listener") fun ref s w =>
    ((), w.registerAt obs ref s p l mask)

/-- Removes a listener and tells whether it was registered. -/
def removeListener [DecidableEq ρ] (obs : Observers ρ σ α) (h : HandlerRef) (p : Phase) (l : ρ)
    (w : World ρ σ) : Except Error Bool × World ρ σ :=
  w.onManagedHooks obs h ("remove_" ++ p.word ++ "_listener") fun ref s w =>
    let rest := Registration.without l (s.registered p)
    (rest.length != (s.registered p).length,
      w.setHooks ref (.managed (s.withRegistered p rest)))

def listeners (obs : Observers ρ σ α) (h : HandlerRef) (p : Phase) (w : World ρ σ) :
    Except Error (List ρ) × World ρ σ :=
  w.onManagedHooks obs h (p.word ++ "_listeners") fun _ s w =>
    ((s.registered p).map (·.listener), w)

end World

end WatchedContainers
