import WatchedContainers.Container.Sequence
import WatchedContainers.Container.Queue
import WatchedContainers.Container.UniqueSet
import WatchedContainers.Container.SortedSet
import WatchedContainers.Container.CountedBag

/-!
# Families of containers

A container offers the operations of every collection and those of its family.  The five standard
containers are listed with what each of them asks of its elements: a sequence and a queue compare
elements by an equality that need not be reflexive, a set without an order needs an equivalence,
and sorted sets and bags need an order.
-/

namespace WatchedContainers

inductive Family (C κ α : Type) where
  | plain
  | list (inst : Positional C α)
  | bag (inst : Counted C α)
  | buffer (inst : Buffered C α)
  | sorted (inst : Sorted C κ α) (order : Ord α)

/-- The standard containers `C` of elements from `α`, with their cursors `κ`. -/
inductive Standard (α : Type) : Type → Type → Type where
  | sequence [BEq α] : Standard α (Sequence α) PositionCursor
  | queue [BEq α] : Standard α (Queue α) PositionCursor
  | uniqueSet [BEq α] [EquivBEq α] : Standard α (UniqueSet α) (CopyCursor α)
  | sortedSet [BEq α] [Ord α] [Std.TransOrd α] : Standard α (SortedSet α) (ResumingCursor α)
  | bag [BEq α] [Ord α] [Std.TransOrd α] : Standard α (CountedBag α) (CopyCursor α)

namespace Standard

variable {C κ α : Type}

@[reducible] def equality : Standard α C κ → BEq α
  | sequence | queue | uniqueSet | sortedSet | bag => inferInstance

@[reducible] def collection : Standard α C κ → Collection C α
  | sequence | queue | uniqueSet | sortedSet | bag => inferInstance

@[reducible] def traversal : Standard α C κ → Traversal C κ α
  | sequence | queue | uniqueSet | sortedSet | bag => inferInstance

@[reducible] def noting : Standard α C κ → Noting C
  | sequence | queue | uniqueSet | sortedSet | bag => inferInstance

def family : Standard α C κ → Family C κ α
  | sequence => .list inferInstance
  | queue => .buffer inferInstance
  | uniqueSet => .plain
  | sortedSet => .sorted inferInstance inferInstance
  | bag => .bag inferInstance

end Standard

end WatchedContainers
