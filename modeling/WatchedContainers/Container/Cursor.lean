import WatchedContainers.Container.Basic

/-!
# Cursors

Three ways to walk over a container while elements are removed from it: by position, over a copy
of the elements made at the start, and by resuming after the element produced last.
-/

namespace WatchedContainers

/-! ### By position -/

structure PositionCursor where
  next : Nat := 0
  current : Option Nat := none
deriving DecidableEq

namespace PositionCursor

variable {α : Type}

def start : PositionCursor := {}

def advance (cur : PositionCursor) (items : List α) : Option α × PositionCursor :=
  match items[cur.next]? with
  | some v => (some v, { next := cur.next + 1, current := some cur.next })
  | none => (none, cur)

/-- The position to be removed, and the cursor once it is gone. -/
def release (cur : PositionCursor) : Option Nat × PositionCursor :=
  match cur.current with
  | some i => (some i, { next := cur.next - 1, current := none })
  | none => (none, cur)

end PositionCursor

/-! ### Over a copy -/

structure CopyCursor (α : Type) where
  items : List α
  next : Nat := 0
  current : Option α := none
deriving DecidableEq

namespace CopyCursor

variable {α : Type}

def advance (cur : CopyCursor α) : Option α × CopyCursor α :=
  match cur.items[cur.next]? with
  | some v => (some v, { cur with next := cur.next + 1, current := some v })
  | none => (none, cur)

/-- The element to be removed, and the cursor once it is gone. -/
def release (cur : CopyCursor α) : Option α × CopyCursor α :=
  (cur.current, { cur with current := none })

end CopyCursor

/-! ### Resuming -/

structure ResumingCursor (α : Type) where
  bounds : Bounds α
  last : Option α := none
  removable : Bool := false
deriving DecidableEq

namespace ResumingCursor

variable {α : Type}

def rest (cur : ResumingCursor α) : Bounds α :=
  match cur.last with
  | some v => { cur.bounds with lower := .excluded v }
  | none => cur.bounds

def produce (cur : ResumingCursor α) (v : α) : ResumingCursor α :=
  { cur with last := some v, removable := true }

end ResumingCursor

end WatchedContainers
