import WatchedContainers.Text.Describe

/-!
# Kinds of modification

Every mutation of a container is of exactly one of sixteen kinds.  A kind owns one bit, so that
sets of kinds are masks (`Event/Mask.lean`).
-/

namespace WatchedContainers

inductive Kind where
  | add
  | addIndexed
  | addCopies
  | addIterated
  | addAll
  | addAllIndexed
  | remove
  | removeIndexed
  | removeCopies
  | removeIterated
  | removeAll
  | retainAll
  | clear
  | setIndexed
  | setIterated
  | removeNext
deriving DecidableEq

/-- What a kind may do to the size of a container. -/
inductive Trend where
  | grows
  | shrinks
  | preserves
deriving DecidableEq

def Trend.name : Trend → String
  | .grows => "Grows"
  | .shrinks => "Shrinks"
  | .preserves => "Preserves"

namespace Kind

/-- All kinds in the order of their bits, but for `removeNext`, which comes last. -/
def all : List Kind :=
  [add, addIndexed, addCopies, addIterated, addAll, addAllIndexed, remove, removeIndexed,
    removeCopies, removeIterated, removeAll, retainAll, clear, setIndexed, setIterated, removeNext]

theorem mem_all (k : Kind) : k ∈ all := by cases k <;> decide

def name : Kind → String
  | add => "Add"
  | addIndexed => "AddIndexed"
  | addCopies => "AddNCopies"
  | addIterated => "AddIterated"
  | addAll => "AddAll"
  | addAllIndexed => "AddAllIndexed"
  | remove => "Remove"
  | removeIndexed => "RemoveIndexed"
  | removeCopies => "RemoveNCopies"
  | removeIterated => "RemoveIterated"
  | removeAll => "RemoveAll"
  | retainAll => "RetainAll"
  | clear => "Clear"
  | setIndexed => "SetIndexed"
  | setIterated => "SetIterated"
  | removeNext => "RemoveNext"

def maskName : Kind → String
  | add => "ADD"
  | addIndexed => "ADD_INDEXED"
  | addCopies => "ADD_NCOPIES"
  | addIterated => "ADD_ITERATED"
  | addAll => "ADD_ALL"
  | addAllIndexed => "ADD_ALL_INDEXED"
  | remove => "REMOVE"
  | removeIndexed => "REMOVE_INDEXED"
  | removeCopies => "REMOVE_NCOPIES"
  | removeIterated => "REMOVE_ITERATED"
  | removeAll => "REMOVE_ALL"
  | retainAll => "RETAIN_ALL"
  | clear => "CLEAR"
  | setIndexed => "SET_INDEXED"
  | setIterated => "SET_ITERATED"
  | removeNext => "REMOVE_NEXT"

/-- The bit owned by a kind: additions from bit 0, removals from bit 8, replacements from bit 16. -/
def bit : Kind → UInt32
  | add => 0x00000001
  | addIndexed => 0x00000002
  | addCopies => 0x00000004
  | addIterated => 0x00000008
  | addAll => 0x00000010
  | addAllIndexed => 0x00000020
  | remove => 0x00000100
  | removeIndexed => 0x00000200
  | removeCopies => 0x00000400
  | removeIterated => 0x00000800
  | removeAll => 0x00001000
  | retainAll => 0x00002000
  | clear => 0x00004000
  | setIndexed => 0x00010000
  | setIterated => 0x00020000
  | removeNext => 0x00040000

/-- The kind whose bit is exactly `bits`. -/
def ofBit? (bits : UInt32) : Option Kind := all.find? fun k => k.bit = bits

theorem ofBit?_bit (k : Kind) : ofBit? k.bit = some k := by cases k <;> decide

/-- The name of the kind with these bits; anything but a single kind is unknown. -/
def nameOfBit (bits : UInt32) : String :=
  match ofBit? bits with
  | some k => k.name
  | none => "Unknown"

/-- The name of a kind laid out in four columns: right, left, centred and cut to three. -/
def columns (k : Kind) : String :=
  "|".intercalate
    [Text.padLeft 16 k.name, Text.padRight 4 k.name, Text.center 15 k.name, Text.clip 3 k.name]

end Kind

end WatchedContainers
