/-!
# Ranges of code points

A set of characters as a list of closed ranges, first to last.  Tables are ascending and apart, so
that each range is as long as it can be.
-/

namespace WatchedContainers.Text

abbrev Ranges := List (Nat × Nat)

namespace Ranges

def holds (rs : Ranges) (n : Nat) : Bool := rs.any fun r => r.1 ≤ n && n ≤ r.2

/-- Ascending, with a gap after each range. -/
def apart : Ranges → Bool
  | [] => true
  | [r] => r.1 ≤ r.2
  | r :: s :: rest => r.1 ≤ r.2 && r.2 + 1 < s.1 && apart (s :: rest)

end Ranges

end WatchedContainers.Text
