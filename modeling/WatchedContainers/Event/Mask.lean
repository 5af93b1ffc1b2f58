import WatchedContainers.Event.Kind
import WatchedContainers.Container.Capabilities

/-!
# Masks of kinds

A mask is a set of kinds, used to select the events a listener hears of.  The groups used most
often are given here by name, together with the kinds that a container of given capabilities is
able to raise.  Bits that belong to no kind are kept and never match.
-/

namespace WatchedContainers

structure Mask where
  bits : UInt32
deriving DecidableEq

def Kind.mask (k : Kind) : Mask := ⟨k.bit⟩

namespace Mask

/-! ### The algebra -/

def empty : Mask := ⟨0⟩
def union (a b : Mask) : Mask := ⟨a.bits ||| b.bits⟩
def meet (a b : Mask) : Mask := ⟨a.bits &&& b.bits⟩
def minus (a b : Mask) : Mask := ⟨a.bits &&& ~~~b.bits⟩
def exclusive (a b : Mask) : Mask := ⟨a.bits ^^^ b.bits⟩

instance : OrOp Mask := ⟨union⟩

def isEmpty (m : Mask) : Bool := m.bits == 0

def contains (a b : Mask) : Bool := a.bits &&& b.bits == b.bits

def intersects (a b : Mask) : Bool := a.bits &&& b.bits != 0

def covers (m : Mask) (k : Kind) : Bool := m.intersects k.mask

def kinds (m : Mask) : List Kind := Kind.all.filter m.covers

def ofKinds (ks : List Kind) : Mask := ⟨ks.foldl (fun b k => b ||| k.bit) 0⟩

/-! ### The groups -/

def adding : Mask :=
  ofKinds [.add, .addIndexed, .addCopies, .addIterated, .addAll, .addAllIndexed]

def removing : Mask :=
  ofKinds [.remove, .removeIndexed, .removeCopies, .removeIterated, .removeAll, .removeNext]

def retaining : Mask := ofKinds [.retainAll]
def clearing : Mask := ofKinds [.clear]
def setting : Mask := ofKinds [.setIndexed, .setIterated]
def indexed : Mask := ofKinds [.addIndexed, .addAllIndexed, .removeIndexed, .setIndexed]
def iterated : Mask := ofKinds [.addIterated, .removeIterated, .setIterated]
def copying : Mask := ofKinds [.addCopies, .removeCopies]
def increasing : Mask := adding
def reducing : Mask := removing ||| retaining ||| clearing
def changing : Mask := increasing ||| reducing ||| setting

def fromCollection : Mask :=
  ofKinds [.add, .addAll, .remove, .removeAll, .retainAll, .clear, .removeIterated]

def fromSet : Mask := fromCollection
def fromSortedSet : Mask := fromSet

def fromList : Mask :=
  fromCollection |||
    ofKinds [.addIndexed, .addAllIndexed, .removeIndexed, .setIndexed, .addIterated, .setIterated]

def fromBag : Mask := fromCollection ||| copying
def fromBuffer : Mask := fromCollection ||| Kind.removeNext.mask

/-- The groups with their names.  A name may also be written with `groupEnding`. -/
def groups : List (String × Mask) :=
  [("ADD", adding), ("REMOVE", removing), ("RETAIN", retaining), ("CLEAR", clearing),
    ("SET", setting), ("INDEXED", indexed), ("ITERATED", iterated), ("NCOPIES", copying),
    ("INCREASE", increasing), ("REDUCE", reducing), ("CHANGE", changing),
    ("FROM_COLLECTION", fromCollection), ("FROM_SET", fromSet),
    ("FROM_SORTED_SET", fromSortedSet), ("FROM_LIST", fromList), ("FROM_BAG", fromBag),
    ("FROM_BUFFER", fromBuffer)]

def groupEnding : String := "_GROUP"

/-- The group of that name.  An unknown name gives the empty mask, which matches nothing. -/
def group (name : String) : Mask :=
  match groups.find? fun g => name == g.1 || name == g.1 ++ groupEnding with
  | some g => g.2
  | none => empty

/-- The kinds that a container with these capabilities is able to raise. -/
def ofCapabilities (c : Capabilities) : Mask :=
  [(Capabilities.collection, fromCollection), (Capabilities.set, fromSet),
    (Capabilities.sortedSet, fromSortedSet), (Capabilities.list, fromList),
    (Capabilities.bag, fromBag), (Capabilities.buffer, fromBuffer)].foldl
    (fun m g => if c.contains g.1 then m ||| g.2 else m) empty

def text (m : Mask) : String :=
  Text.flags "EventFlags" (Kind.all.map fun k => (k.maskName, k.bit)) m.bits

end Mask

namespace Kind

/-- Whether an event of this kind carries an index. -/
def isIndexed (k : Kind) : Bool := Mask.indexed.covers k || Mask.iterated.covers k

def trend (k : Kind) : Trend :=
  if Mask.increasing.covers k then .grows
  else if Mask.reducing.covers k then .shrinks
  else .preserves

end Kind

end WatchedContainers
