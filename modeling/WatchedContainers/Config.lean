import WatchedContainers.Event.Mask

/-!
# Configuration

A configuration is fixed when a root handler is made, and every view below that root inherits it.
-/

namespace WatchedContainers

structure Config where
  /-- How deep views may nest; the root has depth 0. -/
  maxViewDepth : Nat := 64
  /-- The mask of listeners registered without one. -/
  defaultMask : Mask := Mask.changing
  /-- Whether the first veto ends the consultation of the pre-listeners. -/
  shortCircuit : Bool := true
deriving DecidableEq

namespace Config

def standard : Config := {}

def minimal : Config := { maxViewDepth := 0 }

/-- Every pre-listener is consulted, also after a veto. -/
def exhaustive : Config := { shortCircuit := false }

def withMask (c : Config) (m : Mask) : Config := { c with defaultMask := m }

def preset? : String → Option Config
  | "default" => some standard
  | "minimal" => some minimal
  | "exhaustive" => some exhaustive
  | _ => none

def text (c : Config) : String :=
  Text.record "ObservationConfig"
    [("max_view_depth", describe c.maxViewDepth), ("default_listener_mask", c.defaultMask.text),
      ("short_circuit_veto", describe c.shortCircuit)]

end Config

end WatchedContainers
