/-!
# Decimal numbers

A non-negative decimal number as whole digits and a power of ten, how it is read and how it is
written.  `trim` removes zeros at the end of the digits; `write` chooses between the positional
form (`0.0001`, `120.0`) and the form with an exponent (`1.2e20`).
-/

namespace WatchedContainers

/-- The number `digits * 10 ^ exponent`. -/
structure Decimal where
  digits : Nat
  exponent : Int
deriving DecidableEq

namespace Decimal

def numerals (d : Decimal) : List Char := Nat.toDigits 10 d.digits

/-- The power of ten that the leading digit counts. -/
def leading (d : Decimal) : Int := d.numerals.length + d.exponent - 1

/-- Moves the zeros at the end of the digits into the exponent. -/
def trim (digits : Nat) (exponent : Int) : Decimal :=
  if h : 0 < digits ∧ digits % 10 = 0 then trim (digits / 10) (exponent + 1)
  else ⟨digits, exponent⟩
termination_by digits
decreasing_by omega

/-- How many digits a whole number has, counted in groups of sixteen. -/
def width (n : Nat) : Nat :=
  if h : n < Nat.pow 10 16 then (Nat.toDigits 10 n).length else width (n / Nat.pow 10 16) + 16
termination_by n
decreasing_by
  have hpos : 0 < n := Nat.lt_of_lt_of_le (by decide) (Nat.le_of_not_lt h)
  exact Nat.div_lt_self hpos (by decide)

/-! ### Writing -/

def positional (d : Decimal) : String :=
  let whole := d.numerals ++ List.replicate d.exponent.toNat '0'
  let places := (-d.exponent).toNat
  let filled := List.replicate (places + 1 - whole.length) '0' ++ whole
  let fraction := filled.drop (filled.length - places)
  String.ofList (filled.take (filled.length - places)
    ++ '.' :: if fraction.isEmpty then ['0'] else fraction)

/-- One digit before the point, the others behind it, and the power of ten of the first. -/
def scientific (d : Decimal) : String :=
  let fraction := d.numerals.drop 1
  String.ofList (d.numerals.take 1 ++ (if fraction.isEmpty then [] else '.' :: fraction))
    ++ "e" ++ toString d.leading

/-- The powers of ten whose numbers are written positionally: from `least` and below `bound`. -/
structure Layout where
  least : Int
  bound : Int

def write (l : Layout) (d : Decimal) : String :=
  if l.least ≤ d.leading ∧ d.leading < l.bound then d.positional else d.scientific

/-! ### Reading -/

/-- The number that a row of digits stands for. -/
def ofNumerals (cs : List Char) : Nat := cs.foldl (fun n c => n * 10 + (c.toNat - 48)) 0

/-- One or more digits with an optional sign. -/
def readSigned? : List Char → Option Int
  | '-' :: cs => (readSigned cs).map (- ·)
  | '+' :: cs => readSigned cs
  | cs => readSigned cs
where
  readSigned (cs : List Char) : Option Int :=
    if cs.isEmpty || !cs.all Char.isDigit then none else some (ofNumerals cs)

/-- What follows the digits: nothing, or a letter `e` and a power of ten. -/
def readExponent? : List Char → Option Int
  | [] => some 0
  | c :: cs => if c = 'e' || c = 'E' then readSigned? cs else none

/-- Digits with at most one point before, among or after them, and perhaps an exponent. -/
def read? (cs : List Char) : Option Decimal := do
  let whole := cs.takeWhile Char.isDigit
  let rest := cs.dropWhile Char.isDigit
  let tail := if rest.head? = some '.' then rest.drop 1 else rest
  let fraction := if rest.head? = some '.' then tail.takeWhile Char.isDigit else []
  let exponent ← readExponent? (tail.drop fraction.length)
  if whole.isEmpty && fraction.isEmpty then none
  else some ⟨ofNumerals (whole ++ fraction), exponent - fraction.length⟩

end Decimal

end WatchedContainers
