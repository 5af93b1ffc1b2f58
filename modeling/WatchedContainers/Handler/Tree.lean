import WatchedContainers.Handler.World
import WatchedContainers.Error

/-!
# Trees of handlers

Binding a handler, making the handlers of views, and finding the root again.  A view is made of a
bound handler only, keeps the root of the handler it was made of, and adds up the offsets of the
range views above it; a keyed view has no positions and starts over at zero.
-/

namespace WatchedContainers

/-- The root that the handler called `self` belongs to. -/
def Handler.rootOf (h : Handler) (self : HandlerRef) : HandlerRef :=
  match h.role with
  | .root _ => self
  | .range root _ => root
  | .keyed root => root

namespace World

variable {ρ σ α : Type}

/-! ### Binding -/

/-- Binds a handler to a container.  An empty set of capabilities is rejected first. -/
def bind (obs : Observers ρ σ α) (h : HandlerRef) (container : ContainerId)
    (capabilities : Capabilities) (w : World ρ σ) : Except Error Unit × World ρ σ :=
  if capabilities.isEmpty then (.error (.invalidArgument (.noCapabilities container)), w)
  else if (w.handler h).isBound then (.error .alreadyBound, w)
  else
    let bound := w.modifyHandler h fun x => { x with binding := some ⟨container, capabilities⟩ }
    (.ok (), bound.emit obs
      (.handlerBound container capabilities (w.handler h).isView (w.handler h).viewOffset))

/-! ### The root of a handler -/

/-- The root handler, unless all handles on it are gone. -/
def root? (w : World ρ σ) (h : HandlerRef) : Option HandlerRef :=
  if (w.handler h).isRoot then some h
  else if w.isLive ((w.handler h).rootOf h) then some ((w.handler h).rootOf h)
  else none

/-- The root handler.  For a view whose root is gone this is an error, which is also traced. -/
def reachRoot (obs : Observers ρ σ α) (h : HandlerRef) (w : World ρ σ) :
    Except Error HandlerRef × World ρ σ :=
  match w.root? h with
  | some root => (.ok root, w)
  | none => (.error .rootDetached, w.emit obs (.rootGone (w.handler h).viewOffset))

def reachHooks (obs : Observers ρ σ α) (h : HandlerRef) (w : World ρ σ) :
    Except Error HooksRef × World ρ σ :=
  match w.reachRoot obs h with
  | (.error e, w) => (.error e, w)
  | (.ok root, w) =>
    match (w.handler root).role with
    | .root hooks => (.ok hooks, w)
    | _ => (.error .rootDetached, w)

/-! ### Views -/

/-- The depth of a view of `h`, or the limit that forbids it. -/
def depthBelow (h : Handler) : Except Error Nat :=
  if h.depth + 1 > h.config.maxViewDepth then .error (.viewDepthExceeded h.config.maxViewDepth)
  else .ok (h.depth + 1)

/-- The handler of a view of `start` up to and without `stop`. -/
def makeRangeView (obs : Observers ρ σ α) (parent : HandlerRef) (start stop : Nat)
    (w : World ρ σ) : Except Error HandlerRef × World ρ σ :=
  let h := w.handler parent
  if !h.isBound then (.error .notBound, w)
  else if start > stop then (.error (.invalidArgument (.reversedRange start stop)), w)
  else
    match depthBelow h with
    | .error e => (.error e, w)
    | .ok depth =>
      let offset := start + h.viewOffset
      let (ref, w) := (w.emit obs (.rangeViewMade start stop offset depth)).addHandler
        { role := .range (h.rootOf parent) offset, depth, config := h.config }
      (.ok ref, w)

/-- The handler of a view that has no positions. -/
def makeKeyedView (obs : Observers ρ σ α) (parent : HandlerRef) (w : World ρ σ) :
    Except Error HandlerRef × World ρ σ :=
  let h := w.handler parent
  if !h.isBound then (.error .notBound, w)
  else
    match depthBelow h with
    | .error e => (.error e, w)
    | .ok depth =>
      let (ref, w) := (w.emit obs (.keyedViewMade depth)).addHandler
        { role := .keyed (h.rootOf parent), depth, config := h.config }
      (.ok ref, w)

end World

end WatchedContainers
