import WatchedContainers.Text.Describe

/-!
# Names of the bits of a mask

A set of bits is written as the names of its members in their fixed order, followed by the bits
that have no name in hexadecimal; the empty set is written as zero.
-/

namespace WatchedContainers.Text

/-- The named members of `bits`, and the bits left without a name. -/
def splitNamed (names : List (String × UInt32)) (bits : UInt32) : List String × UInt32 :=
  names.foldl
    (fun acc n => if n.2 ≠ 0 ∧ acc.2 &&& n.2 = n.2 then (acc.1 ++ [n.1], acc.2 &&& ~~~n.2) else acc)
    ([], bits)

def flags (typeName : String) (names : List (String × UInt32)) (bits : UInt32) : String :=
  let (named, rest) := splitNamed names bits
  let unnamed := if rest ≠ 0 ∨ bits = 0 then ["0x" ++ hex rest.toNat] else []
  typeName ++ "(" ++ " | ".intercalate (named ++ unnamed) ++ ")"

end WatchedContainers.Text
