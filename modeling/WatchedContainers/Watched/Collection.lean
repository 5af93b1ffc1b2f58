import WatchedContainers.Watched.Plan

/-!
# Operations of every collection

Plans of the operations that every watched container has, and of those that bags and buffers add.
-/

namespace WatchedContainers

variable {C α : Type}

namespace Collection

variable [Collection C α]

def planAdd (v : α) : Operation C α Bool := fun c =>
  let (modified, c') := add c v
  .ok (.reporting (.add v) (size c) false c' (.add v modified) (size c') modified)

def planAddAll (vs : List α) : Operation C α Bool := fun c =>
  let (modified, c') := addAll c vs
  .ok (.reporting (.addAll vs) (size c) false c' (.addAll vs modified) (size c') modified)

def planRemove (v : α) : Operation C α Bool := fun c =>
  let (removed, c') := remove c v
  .ok (.reporting (.remove v) (size c) false c' (.remove v removed) (size c') removed.isSome)

def planRemoveAll [BEq α] (vs : List α) : Operation C α Bool := fun c =>
  let (modified, c') := retain c fun x => !vs.any (· == x)
  .ok (.reporting (.removeAll vs) (size c) false c' (.removeAll vs modified) (size c') modified)

def planRetainAll [BEq α] (vs : List α) : Operation C α Bool := fun c =>
  let (modified, c') := retain c fun x => vs.any (· == x)
  .ok (.reporting (.retainAll vs) (size c) false c' (.retainAll vs modified) (size c') modified)

def planClear : Operation C α Bool := fun c =>
  let modified := size c != 0
  .ok (.reporting .clear (size c) false (clear c) (.clear modified) (size (clear c)) modified)

end Collection

/-! ### Bags -/

namespace Counted

variable [Collection C α] [Counted C α]

/-- Bags do not tell additions reliably, so the report says that the bag changed, whatever it
answered to the caller. -/
def planAddCopies (v : α) (copies : Nat) : Operation C α Bool := fun c =>
  let (answer, c') := addCopies c v copies
  .ok (.reporting (.addCopies v copies) (Collection.size c) false c' (.addCopies v copies true)
    (Collection.size c') answer)

def planRemoveCopies (v : α) (copies : Nat) : Operation C α Bool := fun c =>
  let (answer, c') := removeCopies c v copies
  .ok (.reporting (.removeCopies v copies) (Collection.size c) false c'
    (.removeCopies v copies true) (Collection.size c') answer)

end Counted

/-! ### Buffers -/

namespace Buffered

variable [Collection C α] [Buffered C α]

def planRemoveNext : Operation C α (Option α) := fun c =>
  let (removed, c') := removeNext c
  .ok (.reporting .removeNext (Collection.size c) none c' (.removeNext removed)
    (Collection.size c') removed)

end Buffered

end WatchedContainers
