import WatchedContainers.Container.Sequence

/-!
# Containers without shortcuts

A container may bring batch operations of its own, and a size of its own for ranges.  The same
container without them (`byDefault`) goes element by element.  What is asked of a list container and
of a set container is said here of the operations that have no default, for positions they are meant
for (`ActsAsSequence`, `ActsAsSet`).
-/

namespace WatchedContainers

variable {C κ α : Type}

/-! ### Defaults -/

/-- The same container, whose batches are added element by element. -/
@[reducible] def Collection.byDefault (inst : Collection C α) : Collection C α where
  capabilities := inst.capabilities
  size := inst.size
  contains := inst.contains
  add := inst.add
  remove := inst.remove
  retain := inst.retain
  clear := inst.clear

/-- The same list container, whose batches are inserted and whose ranges are removed element by
element. -/
@[reducible] def Positional.byDefault (inst : Positional C α) : Positional C α where
  get? := inst.get?
  insertAt := inst.insertAt
  removeAt := inst.removeAt
  setAt := inst.setAt

/-- The same sorted container, which counts the elements of a range. -/
@[reducible] def Sorted.byDefault (inst : Sorted C κ α) : Sorted C κ α where
  first := inst.first
  last := inst.last
  within := inst.within
  cursorWithin := inst.cursorWithin

/-- A list container that is lost once it is called at a position that it is not meant for.  Its
batches go element by element. -/
@[reducible] def Positional.strict [Collection C α] (inst : Positional C α) :
    Positional (Option C) α where
  get? c i := c.bind (inst.get? · i)
  insertAt c i v :=
    c.bind fun c => if i ≤ Collection.size c then some (inst.insertAt c i v) else none
  removeAt
    | some c, i =>
      if i < Collection.size c then (inst.removeAt c i).map id some else (none, none)
    | none, _ => (none, none)
  setAt
    | some c, i, v =>
      if i < Collection.size c then (inst.setAt c i v).map id some else (none, none)
    | none, _, _ => (none, none)

/-! ### What is asked of a container -/

/-- A list container seen as a sequence.  Whatever it is called for, at a position that the
operation is meant for, it does as the sequence does. -/
structure ActsAsSequence [BEq α] [Collection C α] [Positional C α] (view : C → Sequence α) :
    Prop where
  size : ∀ c, Collection.size c = Collection.size (view c)
  get? : ∀ c i, Positional.get? c i = Positional.get? (view c) i
  add : ∀ c v, (Collection.add c v).map id view = Collection.add (view c) v
  insertAt : ∀ c i v, i ≤ Collection.size c →
    view (Positional.insertAt c i v) = Positional.insertAt (view c) i v
  removeAt : ∀ c i, i < Collection.size c →
    (Positional.removeAt c i).map id view = Positional.removeAt (view c) i

/-- A set container by its elements, which are told apart by `same`.  Of values that are the same it
stores one, and an addition leaves the stored one in its place. -/
structure ActsAsSet [Collection C α] (same : α → α → Bool) (items : C → List α) : Prop where
  refl : ∀ v, same v v
  symm : ∀ {v x}, same v x → same x v
  trans : ∀ {v x y}, same v x → same x y → same v y
  distinct : ∀ c, (items c).Pairwise fun a b => same a b = false
  contains : ∀ c v, Collection.contains c v = (items c).any (same v)
  changes : ∀ (c : C) v, (Collection.add c v).1 = !Collection.contains c v
  stores : ∀ c v x, x ∈ items (Collection.add c v).2 ↔
    x ∈ items c ∨ Collection.contains c v = false ∧ x = v

end WatchedContainers
