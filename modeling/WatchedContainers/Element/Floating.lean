import WatchedContainers.Decimal.Shortest
import WatchedContainers.Identity
import WatchedContainers.Text.Describe

/-!
# Floating-point elements

Signed magnitudes of limited precision with infinities, two zeros and a value that is not a number.
Only the latter differs from itself, and the two zeros are equal.  A finite value is written with
the fewest digits that are read back as it, and any decimal text is read as the nearest value.
-/

namespace WatchedContainers

inductive Floating where
  | notANumber
  | infinite (negative : Bool)
  | finite (negative : Bool) (magnitude : Magnitude)
deriving DecidableEq

namespace Floating

instance : BEq Floating where
  beq
    | notANumber, _ => false
    | _, notANumber => false
    | finite n m, finite n' m' => m == m' && (m.units == 0 || n == n')
    | a, b => decide (a = b)

instance : ObjectIdentity Floating := ⟨fun _ _ => false⟩

/-! ### Writing -/

/-- Values from `10 ^ -4` and below `10 ^ 16` are written positionally. -/
def layout : Decimal.Layout := ⟨-4, 16⟩

def sign (negative : Bool) : String := if negative then "-" else ""

def text : Floating → String
  | notANumber => "NaN"
  | infinite negative => sign negative ++ "inf"
  | finite negative m => sign negative ++ m.shortest.write layout

instance : Describe Floating := ⟨text⟩

/-! ### Reading -/

/-- Reads the words for special values in any case, and decimal numbers. -/
def readUnsigned? (negative : Bool) (cs : List Char) : Option Floating :=
  let word := String.ofList (cs.map Char.toLower)
  if word = "nan" then some notANumber
  else if word = "inf" || word = "infinity" then some (infinite negative)
  else (Decimal.read? cs).map fun d =>
    (Magnitude.ofDecimal? d).elim (infinite negative) (finite negative)

def read? (s : String) : Option Floating :=
  match s.toList with
  | '-' :: cs => readUnsigned? true cs
  | '+' :: cs => readUnsigned? false cs
  | cs => readUnsigned? false cs

end Floating

end WatchedContainers
