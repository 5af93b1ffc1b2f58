import WatchedContainers.Text.FlagNames

/-!
# Capabilities

What a container offers, as a set of bits.  Bits without a name are kept.
-/

namespace WatchedContainers

structure Capabilities where
  bits : UInt32
deriving DecidableEq

namespace Capabilities

def empty : Capabilities := ⟨0⟩
def collection : Capabilities := ⟨0x01⟩
def set : Capabilities := ⟨0x02⟩
def list : Capabilities := ⟨0x04⟩
def bag : Capabilities := ⟨0x08⟩
def buffer : Capabilities := ⟨0x10⟩
def sortedSet : Capabilities := ⟨0x20⟩

def union (a b : Capabilities) : Capabilities := ⟨a.bits ||| b.bits⟩

instance : OrOp Capabilities := ⟨union⟩

def contains (a b : Capabilities) : Bool := a.bits &&& b.bits == b.bits

def isEmpty (a : Capabilities) : Bool := a.bits == 0

def names : List (String × UInt32) :=
  [("COLLECTION", collection.bits), ("SET", set.bits), ("LIST", list.bits), ("BAG", bag.bits),
    ("BUFFER", buffer.bits), ("SORTED_SET", sortedSet.bits)]

def text (a : Capabilities) : String := Text.flags "Capabilities" names a.bits

end Capabilities

end WatchedContainers
