import WatchedContainers.Event.Text

/-!
# Traces

What the handlers tell of their own work, apart from the events: a level, a message and named
fields.
-/

namespace WatchedContainers

inductive Level where
  | trace
  | debug
  | warn
deriving DecidableEq

def Level.name : Level → String
  | .trace => "TRACE"
  | .debug => "DEBUG"
  | .warn => "WARN"

inductive Trace (α : Type) where
  | handlerBound (container : ContainerId) (capabilities : Capabilities) (isView : Bool)
      (offset : Nat)
  | rangeViewMade (start stop offset depth : Nat)
  | keyedViewMade (depth : Nat)
  | dispatching (event : Event α)
  | vetoed (kind : Kind) (container : ContainerId)
  | nothingRemoved (kind : Kind)
  | rootGone (offset : Nat)
  | listenerAdded (phase : Phase) (count : Nat) (mask : Mask)
  | factoryAdded (element : String) (count : Nat)
  | listenerUnknown (container : ContainerId) (typeName : String)

namespace Trace

variable {α : Type}

def level : Trace α → Level
  | dispatching _ | nothingRemoved _ => .trace
  | rootGone _ => .warn
  | _ => .debug

def message : Trace α → String
  | handlerBound _ _ _ _ => "handler bound"
  | rangeViewMade _ _ _ _ => "range view handler created"
  | keyedViewMade _ => "keyed view handler created"
  | dispatching _ => "dispatching"
  | vetoed _ _ => "modification vetoed"
  | nothingRemoved .removeNext => "buffer empty, no post event"
  | nothingRemoved _ => "element absent, no post event"
  | rootGone _ => "view used after its root was dropped"
  | listenerAdded phase _ _ => phase.word ++ "-listener registered"
  | factoryAdded _ _ => "handler factory registered"
  | listenerUnknown _ _ => "listener not recognised"

def fields : Trace α → List (String × String)
  | handlerBound container capabilities isView offset =>
    [("container", container.text), ("capabilities", capabilities.text),
      ("view", describe isView), ("offset", describe offset)]
  | rangeViewMade start stop offset depth =>
    [("from", describe start), ("to", describe stop), ("offset", describe offset),
      ("depth", describe depth)]
  | keyedViewMade depth => [("depth", describe depth)]
  | dispatching event => [("event", event.text)]
  | vetoed kind container => [("kind", kind.name), ("container", container.text)]
  | nothingRemoved kind => [("kind", kind.name)]
  | rootGone offset => [("offset", describe offset)]
  | listenerAdded _ count mask =>
    [("count", describe count), ("mask", mask.text)]
  | factoryAdded element count => [("element", element), ("count", describe count)]
  | listenerUnknown container typeName => [("container", container.text), ("listener", typeName)]

end Trace

end WatchedContainers
