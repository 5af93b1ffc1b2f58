import WatchedContainers.Handler.Tree

/-!
# Dispatch

`propose` asks the root's hooks whether a modification may happen, `conclude` tells them what came
of it.  Both can be called on any handler of a tree: a view adds its offset, names itself in the
event and hands over to the root, which builds the event and calls the hooks.

A root remembers the size given with a proposal and repeats it with the next conclusion, whoever
made that proposal.

Managed hooks take a copy of their list before they call the first listener, so changes that a
listener makes to the list count from the next event on.
-/

namespace WatchedContainers

variable {ρ σ α : Type}

/-! ### Calling the hooks -/

/-- Asks one listener after the other.  The answer is no if one of them said no; with
`shortCircuit` the first no is also the last question. -/
def consult (obs : Observers ρ σ α) (shortCircuit : Bool) (e : Event α) :
    List ρ → World ρ σ → Bool × World ρ σ
  | [], w => (true, w)
  | l :: rest, w =>
    match obs.decide l e w with
    | (true, w) => consult obs shortCircuit e rest w
    | (false, w) => if shortCircuit then (false, w) else (false, (consult obs false e rest w).2)

def inform (obs : Observers ρ σ α) (e : Event α) : List ρ → World ρ σ → World ρ σ
  | [], w => w
  | l :: rest, w => inform obs e rest (obs.notify l e w)

namespace Hooks

def decide (obs : Observers ρ σ α) (hooks : Hooks ρ) (e : Event α) (w : World ρ σ) :
    Bool × World ρ σ :=
  match hooks with
  | acceptAll => (true, w)
  | policy party => obs.decide party e w
  | managed s => consult obs s.config.shortCircuit e (Registration.hearing e.kind s.pre) w

def notify (obs : Observers ρ σ α) (hooks : Hooks ρ) (e : Event α) (w : World ρ σ) :
    World ρ σ :=
  match hooks with
  | acceptAll => w
  | policy party => obs.notify party e w
  | managed s => inform obs e (Registration.hearing e.kind s.post) w

end Hooks

namespace World

/-! ### At the root -/

/-- The hooks that the root handler `root` calls. -/
def hooksOfRoot (w : World ρ σ) (root : HandlerRef) : Hooks ρ :=
  match (w.handler root).role with
  | .root hooks => w.hooksAt hooks
  | _ => .acceptAll

def proposeAtRoot (obs : Observers ρ σ α) (root : HandlerRef) (m : Modification α)
    (view : Option Viewpoint) (size : Nat) (w : World ρ σ) : Except Error Bool × World ρ σ :=
  match (w.handler root).binding with
  | none => (.error .notBound, w)
  | some b =>
    let e := Event.before b.container root m view size
    let w := (w.modifyHandler root fun x => { x with preSize := size }).emit obs (.dispatching e)
    match (w.hooksOfRoot root).decide obs e w with
    | (true, w) => (.ok true, w)
    | (false, w) => (.ok false, w.emit obs (.vetoed e.kind b.container))

def concludeAtRoot [ObjectIdentity α] (obs : Observers ρ σ α) (root : HandlerRef) (offset : Nat)
    (c : Completion α) (view : Option Viewpoint) (size : Nat) (w : World ρ σ) :
    Except Error Unit × World ρ σ :=
  match (w.handler root).binding with
  | none => (.error .notBound, w)
  | some b =>
    let e := Event.after b.container root offset c view (w.handler root).preSize size
    let w := w.emit obs (.dispatching e)
    (.ok (), (w.hooksOfRoot root).notify obs e w)

/-! ### At any handler -/

def viewpoint? (h : Handler) (container : ContainerId) : Option Viewpoint :=
  if h.isRoot then none else some ⟨container, h.viewOffset⟩

/-- Asks whether a modification may happen to a container of that size. -/
def propose (obs : Observers ρ σ α) (h : HandlerRef) (m : Modification α) (size : Nat)
    (w : World ρ σ) : Except Error Bool × World ρ σ :=
  match (w.handler h).binding with
  | none => (.error .notBound, w)
  | some b =>
    match w.reachRoot obs h with
    | (.error e, w) => (.error e, w)
    | (.ok root, w) =>
      w.proposeAtRoot obs root (m.shift (w.handler h).viewOffset)
        (viewpoint? (w.handler h) b.container) size

/-- Tells what came of a modification.  A removal that found nothing is not an event. -/
def conclude [ObjectIdentity α] (obs : Observers ρ σ α) (h : HandlerRef) (c : Completion α)
    (size : Nat) (w : World ρ σ) : Except Error Unit × World ρ σ :=
  match c.absent? with
  | some kind => (.ok (), w.emit obs (.nothingRemoved kind))
  | none =>
    match (w.handler h).binding with
    | none => (.error .notBound, w)
    | some b =>
      match w.reachRoot obs h with
      | (.error e, w) => (.error e, w)
      | (.ok root, w) =>
        w.concludeAtRoot obs root (w.handler h).viewOffset c
          (viewpoint? (w.handler h) b.container) size

end World

end WatchedContainers
