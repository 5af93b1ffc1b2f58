import WatchedContainers.Decimal.Magnitude

/-!
# Shortest decimals

The decimal number with the fewest digits among those that are read as a given magnitude, and of
these the one nearest to it.  The numbers read as a magnitude form an interval; `Reach.whole?` looks
for a point of a decimal grid in it, and `Magnitude.shortest` tries ever finer grids.
-/

namespace WatchedContainers

/-- The numbers from `low / scale` to `high / scale` around `value / scale`, with both ends if it is
`closed` and without them if it is not. -/
structure Reach where
  low : Nat
  value : Nat
  high : Nat
  scale : Nat
  closed : Bool

namespace Reach

/-- The same numbers counted in units of `10 ^ e`. -/
def inTens (r : Reach) (e : Int) : Reach :=
  let up := Nat.pow 10 (-e).toNat
  ⟨r.low * up, r.value * up, r.high * up, r.scale * Nat.pow 10 e.toNat, r.closed⟩

def contains (r : Reach) (n : Nat) : Bool :=
  if r.closed then r.low ≤ n * r.scale && n * r.scale ≤ r.high
  else r.low < n * r.scale && n * r.scale < r.high

/-- The whole number in reach that is nearest to the value, and of two equally near the greater.
Only the neighbours of the value need a test: if one is in reach, a neighbour is. -/
def whole? (r : Reach) : Option Nat :=
  let below := r.value / r.scale
  let above := below + 1
  if r.contains below && (!r.contains above || 2 * r.value < (below + above) * r.scale) then
    some below
  else if r.contains above then some above
  else none

end Reach

namespace Magnitude

/-- The numbers nearer to a magnitude than to any other, in half units.  Below a power of two the
magnitudes are closer together.  The midpoints belong to an even significand. -/
def reach (m : Magnitude) : Reach :=
  let g := gap m.units
  let below := if 1 < g ∧ m.units = Nat.pow 2 52 * g then g / 2 else g
  ⟨2 * m.units - below, 2 * m.units, 2 * m.units + g, 2 * unitsPerOne, m.units / g % 2 = 0⟩

/-- The least power of ten that exceeds a magnitude other than zero. -/
def order (m : Magnitude) : Int :=
  Decimal.width (m.units * Nat.pow 10 span / unitsPerOne) - span

/-- The decimal number that stands for a magnitude.  Seventeen digits are enough; the exact value
would be the answer if they were not. -/
def shortest (m : Magnitude) : Decimal :=
  if m.units = 0 then ⟨0, 0⟩
  else
    let found := (List.range 17).findSome? fun (n : Nat) =>
      let e := m.order - (n + 1)
      (m.reach.inTens e).whole?.map fun digits => Decimal.trim digits e
    found.getD (Decimal.trim (m.units * Nat.pow 5 1074) (-1074))

end Magnitude

end WatchedContainers
