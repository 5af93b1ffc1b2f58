import WatchedContainers.Handler.World

/-!
# Judges

A judge stands for root hooks that decide on their own and make no calls themselves.  It keeps
what it heard, so its decision is an arbitrary function of the events received before and of the
one it is asked about.
-/

namespace WatchedContainers

/-- A call of the root's hooks: a question with its answer, or a message. -/
inductive Heard (α : Type) where
  | asked (event : Event α) (answer : Bool)
  | told (event : Event α)
deriving DecidableEq

namespace Heard

variable {α : Type}

def answer? : Heard α → Option Bool
  | asked _ b => some b
  | told _ => none

def told? : Heard α → Option (Event α)
  | asked _ _ => none
  | told e => some e

end Heard

/-- The world of a judge keeps the calls of the root's hooks, oldest first. -/
abbrev HeardWorld (α : Type) := World Unit (List (Heard α))

/-- The decision on an event after what was heard before it. -/
abbrev Judge (α : Type) := List (Heard α) → Event α → Bool

namespace Judge

variable {α : Type}

def always : Judge α := fun _ _ => true

/-- Decides by the number of the question, that is by how many were answered before. -/
def counting (f : Nat → Bool) : Judge α := fun heard _ => f (heard.filterMap Heard.answer?).length

/-- The outside party that decides by a judge and keeps what it hears. -/
def observers (j : Judge α) : Observers Unit (List (Heard α)) α where
  decide _ e w :=
    (j w.outside e, { w with outside := w.outside ++ [.asked e (j w.outside e)] })
  notify _ e w := { w with outside := w.outside ++ [.told e] }
  trace _ heard := heard
  note _ heard := heard

end Judge

end WatchedContainers
