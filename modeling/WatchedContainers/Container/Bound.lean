import WatchedContainers.Text.Describe

/-!
# Order and bounds

A range of an ordered type has a lower and an upper bound, each of which may be included, excluded
or missing.  Two ranges intersect in a range, whose bounds are the tighter ones of both.
-/

namespace WatchedContainers

def Precedes {α : Type} [Ord α] (a b : α) : Prop := compare a b = .lt

inductive Bound (α : Type) where
  | included (value : α)
  | excluded (value : α)
  | unbounded
deriving DecidableEq

structure Bounds (α : Type) where
  lower : Bound α
  upper : Bound α
deriving DecidableEq

namespace Bound

variable {α : Type} [Ord α]

def text [Describe α] : Bound α → String
  | included v => "Included(" ++ describe v ++ ")"
  | excluded v => "Excluded(" ++ describe v ++ ")"
  | unbounded => "Unbounded"

def allowsFrom (b : Bound α) (v : α) : Bool :=
  match b with
  | included x => (compare x v).isLE
  | excluded x => compare x v == .lt
  | unbounded => true

def allowsTo (b : Bound α) (v : α) : Bool :=
  match b with
  | included x => (compare v x).isLE
  | excluded x => compare v x == .lt
  | unbounded => true

def isExcluded : Bound α → Bool
  | excluded _ => true
  | _ => false

def value? : Bound α → Option α
  | included v | excluded v => some v
  | unbounded => none

/-- The tighter of two lower bounds.  At equal values an excluded bound is the tighter one. -/
def meetLower (a b : Bound α) : Bound α :=
  match a.value?, b.value? with
  | _, none => a
  | none, _ => b
  | some x, some y =>
    match compare x y with
    | .gt => a
    | .lt => b
    | .eq => if a.isExcluded then a else b

def meetUpper (a b : Bound α) : Bound α :=
  match a.value?, b.value? with
  | _, none => a
  | none, _ => b
  | some x, some y =>
    match compare x y with
    | .lt => a
    | .gt => b
    | .eq => if a.isExcluded then a else b

end Bound

namespace Bounds

variable {α : Type} [Ord α]

def all : Bounds α := ⟨.unbounded, .unbounded⟩

def contains (b : Bounds α) (v : α) : Bool := b.lower.allowsFrom v && b.upper.allowsTo v

def intersect (a b : Bounds α) : Bounds α :=
  ⟨a.lower.meetLower b.lower, a.upper.meetUpper b.upper⟩

/-- Whether the bounds may be asked of an ordered set.  Between two excluded bounds the lower one
has to be smaller; otherwise it may also be equal. -/
def isOrdered (b : Bounds α) : Bool :=
  match b.lower, b.upper with
  | .unbounded, _ => true
  | _, .unbounded => true
  | .excluded x, .excluded y => compare x y == .lt
  | .excluded x, .included y => (compare x y).isLE
  | .included x, .excluded y => (compare x y).isLE
  | .included x, .included y => (compare x y).isLE

end Bounds

end WatchedContainers
