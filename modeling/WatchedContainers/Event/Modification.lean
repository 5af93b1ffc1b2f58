import WatchedContainers.Event.Mask
import WatchedContainers.Identity

/-!
# Modifications, proposed and completed

A `Modification` is what an operation asks for: one constructor for each kind, with the data that
kind has before anything happened.  A `Completion` is the same modification after the container
was changed, with what the container gave back.  Which element was taken out, or replaced, is
known of a completion only, and for some kinds only the container can tell whether anything
changed.

Positions are counted in the container or view that the operation was called on; `shift` moves
them to the coordinates of the root.
-/

namespace WatchedContainers

inductive Modification (α : Type) where
  | add (value : α)
  | addIndexed (index : Nat) (value : α)
  | addCopies (value : α) (copies : Nat)
  | addIterated (index : Nat) (value : α)
  | addAll (values : List α)
  | addAllIndexed (index : Nat) (values : List α)
  | remove (value : α)
  | removeIndexed (index : Nat)
  | removeCopies (value : α) (copies : Nat)
  | removeIterated (index : Nat) (value : α)
  | removeAll (values : List α)
  | retainAll (values : List α)
  | clear
  | setIndexed (index : Nat) (value : α)
  | setIterated (index : Nat) (value : α)
  | removeNext
deriving DecidableEq

namespace Modification

variable {α : Type}

def kind : Modification α → Kind
  | add _ => .add
  | addIndexed _ _ => .addIndexed
  | addCopies _ _ => .addCopies
  | addIterated _ _ => .addIterated
  | addAll _ => .addAll
  | addAllIndexed _ _ => .addAllIndexed
  | remove _ => .remove
  | removeIndexed _ => .removeIndexed
  | removeCopies _ _ => .removeCopies
  | removeIterated _ _ => .removeIterated
  | removeAll _ => .removeAll
  | retainAll _ => .retainAll
  | clear => .clear
  | setIndexed _ _ => .setIndexed
  | setIterated _ _ => .setIterated
  | removeNext => .removeNext

def index? : Modification α → Option Nat
  | addIndexed i _ | addIterated i _ | addAllIndexed i _ | removeIndexed i
  | removeIterated i _ | setIndexed i _ | setIterated i _ => some i
  | _ => none

def subject? : Modification α → Option α
  | add v | addIndexed _ v | addCopies v _ | addIterated _ v | remove v | removeCopies v _
  | removeIterated _ v | setIndexed _ v | setIterated _ v => some v
  | _ => none

def batch? : Modification α → Option (List α)
  | addAll vs | addAllIndexed _ vs | removeAll vs | retainAll vs => some vs
  | _ => none

/-- How many copies are meant; one but for the kinds that count. -/
def repetitions : Modification α → Nat
  | addCopies _ n | removeCopies _ n => n
  | _ => 1

def shift (offset : Nat) : Modification α → Modification α
  | addIndexed i v => addIndexed (i + offset) v
  | addIterated i v => addIterated (i + offset) v
  | addAllIndexed i vs => addAllIndexed (i + offset) vs
  | removeIndexed i => removeIndexed (i + offset)
  | removeIterated i v => removeIterated (i + offset) v
  | setIndexed i v => setIndexed (i + offset) v
  | setIterated i v => setIterated (i + offset) v
  | m => m

@[simp] theorem kind_shift (offset : Nat) (m : Modification α) :
    (m.shift offset).kind = m.kind := by
  cases m <;> rfl

@[simp] theorem index?_shift (offset : Nat) (m : Modification α) :
    (m.shift offset).index? = m.index?.map (· + offset) := by
  cases m <;> rfl

@[simp] theorem shift_zero (m : Modification α) : m.shift 0 = m := by
  cases m <;> rfl

end Modification

inductive Completion (α : Type) where
  | add (value : α) (modified : Bool)
  | addIndexed (index : Nat) (value : α)
  | addCopies (value : α) (copies : Nat) (modified : Bool)
  | addIterated (index : Nat) (value : α)
  | addAll (values : List α) (modified : Bool)
  | addAllIndexed (index : Nat) (values : List α) (modified : Bool)
  | remove (value : α) (removed : Option α)
  | removeIndexed (index : Nat) (previous : α)
  | removeCopies (value : α) (copies : Nat) (modified : Bool)
  | removeIterated (index : Nat) (previous : α)
  | removeAll (values : List α) (modified : Bool)
  | retainAll (values : List α) (modified : Bool)
  | clear (modified : Bool)
  | setIndexed (index : Nat) (value previous : α)
  | setIterated (index : Nat) (value previous : α)
  | removeNext (removed : Option α)

namespace Completion

variable {α : Type}

def modification : Completion α → Modification α
  | add v _ => .add v
  | addIndexed i v => .addIndexed i v
  | addCopies v n _ => .addCopies v n
  | addIterated i v => .addIterated i v
  | addAll vs _ => .addAll vs
  | addAllIndexed i vs _ => .addAllIndexed i vs
  | remove v _ => .remove v
  | removeIndexed i _ => .removeIndexed i
  | removeCopies v n _ => .removeCopies v n
  | removeIterated i v => .removeIterated i v
  | removeAll vs _ => .removeAll vs
  | retainAll vs _ => .retainAll vs
  | clear _ => .clear
  | setIndexed i v _ => .setIndexed i v
  | setIterated i v _ => .setIterated i v
  | removeNext _ => .removeNext

/-- The element that was taken out or replaced. -/
def previous? : Completion α → Option α
  | remove _ removed | removeNext removed => removed
  | removeIndexed _ p | removeIterated _ p | setIndexed _ _ p | setIterated _ _ p => some p
  | _ => none

/-- Whether the container changed.  A replacement changes it unless an instance replaced itself. -/
def modified [ObjectIdentity α] : Completion α → Bool
  | add _ b | addCopies _ _ b | addAll _ b | addAllIndexed _ _ b | removeCopies _ _ b
  | removeAll _ b | retainAll _ b | clear b => b
  | setIndexed _ v p | setIterated _ v p => !sameObject v p
  | _ => true

/-- The kind of a removal that found nothing.  No event is raised for it. -/
def absent? : Completion α → Option Kind
  | remove _ none => some .remove
  | removeNext none => some .removeNext
  | _ => none

end Completion

end WatchedContainers
