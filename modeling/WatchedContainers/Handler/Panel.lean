import WatchedContainers.Handler.Dispatch
import WatchedContainers.Handler.Listeners

/-!
# Panels of listeners

A panel says what every listener does when it is called.  A listener may make requests of the
handlers and hooks before it returns, and choose each of them by what came of those before it; and
it may remember whatever any listener has heard so far.  So nothing is taken for granted of a
listener but that it does the same when it has come to the same point.

What is heard is kept in minutes, oldest first.  They take the place of all that lies outside.
-/

namespace WatchedContainers

variable {ρ σ α : Type}

/-! ### Requests -/

/-- A call of a handler, or of hooks. -/
inductive Request (ρ α : Type) where
  | register (h : HandlerRef) (p : Phase) (l : ρ) (mask : Mask)
  /-- Registers a listener with the default mask of the hooks. -/
  | subscribe (ref : HooksRef) (p : Phase) (l : ρ)
  | unregister (h : HandlerRef) (p : Phase) (l : ρ)
  | list (h : HandlerRef) (p : Phase)
  | propose (h : HandlerRef) (m : Modification α) (size : Nat)
  | conclude (h : HandlerRef) (c : Completion α) (size : Nat)
  | rangeView (parent : HandlerRef) (start stop : Nat)
  | keyedView (parent : HandlerRef)
  | bind (h : HandlerRef) (id : ContainerId) (caps : Capabilities)

/-- What comes of a request. -/
inductive Grant (ρ : Type) where
  | done
  | answer (b : Bool)
  | listed (listeners : List ρ)
  | made (h : HandlerRef)
deriving DecidableEq

namespace Request

def listener? : Request ρ α → Option ρ
  | register _ _ l _ | subscribe _ _ l | unregister _ _ l => some l
  | _ => none

def lists : Request ρ α → Bool
  | list _ _ => true
  | _ => false

def raises : Request ρ α → Bool
  | propose _ _ _ | conclude _ _ _ => true
  | _ => false

end Request

def World.grant [DecidableEq ρ] [ObjectIdentity α] (obs : Observers ρ σ α) (x : Request ρ α)
    (w : World ρ σ) : Except Error (Grant ρ) × World ρ σ :=
  match x with
  | .register h p l mask =>
    let (r, w) := w.addListener obs h p l mask
    (r.map fun _ => .done, w)
  | .subscribe ref p l => (.ok .done, w.subscribe obs ref p l)
  | .unregister h p l =>
    let (r, w) := w.removeListener obs h p l
    (r.map .answer, w)
  | .list h p =>
    let (r, w) := w.listeners obs h p
    (r.map .listed, w)
  | .propose h m size =>
    let (r, w) := w.propose obs h m size
    (r.map .answer, w)
  | .conclude h c size =>
    let (r, w) := w.conclude obs h c size
    (r.map fun _ => .done, w)
  | .rangeView parent start stop =>
    let (r, w) := w.makeRangeView obs parent start stop
    (r.map .made, w)
  | .keyedView parent =>
    let (r, w) := w.makeKeyedView obs parent
    (r.map .made, w)
  | .bind h id caps =>
    let (r, w) := w.bind obs h id caps
    (r.map fun _ => .done, w)

/-! ### Conduct -/

/-- What somebody does who makes requests, one after the other, and then answers. -/
inductive Conduct (ρ α β : Type) where
  | done (b : β)
  | call (x : Request ρ α) (next : Except Error (Grant ρ) → Conduct ρ α β)

def World.follow [DecidableEq ρ] [ObjectIdentity α] {β : Type} (obs : Observers ρ σ α) :
    Conduct ρ α β → World ρ σ → β × World ρ σ
  | .done b, w => (b, w)
  | .call x next, w =>
    match w.grant obs x with
    | (r, w) => follow obs (next r) w

/-! ### Minutes -/

inductive Minute (ρ α : Type) where
  /-- The event is about to be dispatched. -/
  | raised (e : Event α)
  | asked (l : ρ) (e : Event α)
  | answered (l : ρ) (e : Event α) (b : Bool)
  | told (l : ρ) (e : Event α)
deriving DecidableEq

abbrev MinutedWorld (ρ α : Type) := World ρ (List (Minute ρ α))

namespace Minute

def listener? : Minute ρ α → Option ρ
  | raised _ => none
  | asked l _ | answered l _ _ | told l _ => some l

/-- The minutes of an event that is dispatched.  Other traces are not kept. -/
def ofTrace : Trace α → List (Minute ρ α)
  | .dispatching e => [raised e]
  | _ => []

end Minute

def World.minute (m : Minute ρ α) (w : MinutedWorld ρ α) : MinutedWorld ρ α :=
  { w with outside := w.outside ++ [m] }

/-! ### Panels -/

/-- What every listener does when it is asked or told, after these minutes. -/
structure Panel (ρ α : Type) where
  asked : List (Minute ρ α) → ρ → Event α → Conduct ρ α Bool
  told : List (Minute ρ α) → ρ → Event α → Conduct ρ α Unit

/-- The listeners of a panel, as long as their calls are nested at most `depth` deep.  Further down
nobody is called. -/
def Panel.observers [DecidableEq ρ] [ObjectIdentity α] (panel : Panel ρ α) :
    Nat → Observers ρ (List (Minute ρ α)) α
  | 0 => ⟨fun _ _ w => (true, w), fun _ _ w => w, fun t x => x ++ Minute.ofTrace t, fun _ x => x⟩
  | depth + 1 =>
    { decide := fun l e w =>
        let (b, w') := (w.minute (.asked l e)).follow (panel.observers depth)
          (panel.asked w.outside l e)
        (b, w'.minute (.answered l e b))
      notify := fun l e w =>
        ((w.minute (.told l e)).follow (panel.observers depth) (panel.told w.outside l e)).2
      trace := fun t x => x ++ Minute.ofTrace t
      note := fun _ x => x }

end WatchedContainers
