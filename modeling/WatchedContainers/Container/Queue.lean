import WatchedContainers.Container.Cursor

/-!
# Queues

A buffer that gives its elements up in the order in which they were added.
-/

namespace WatchedContainers

structure Queue (α : Type) where
  items : List α
deriving DecidableEq

namespace Queue

variable {α : Type}

def toList (q : Queue α) : List α := q.items

section

variable [BEq α]

def remove (q : Queue α) (v : α) : Option α × Queue α :=
  match q.items.findIdx? (· == v) with
  | some i => (q.items[i]?, ⟨q.items.eraseIdx i⟩)
  | none => (none, q)

def retain (q : Queue α) (keep : α → Bool) : Bool × Queue α :=
  ((q.items.filter keep).length != q.items.length, ⟨q.items.filter keep⟩)

instance : Collection (Queue α) α where
  capabilities := .collection ||| .buffer
  size q := q.items.length
  contains q v := q.items.any (· == v)
  add q v := (true, ⟨q.items ++ [v]⟩)
  remove := remove
  retain := retain
  clear _ := ⟨[]⟩

end

instance : Traversal (Queue α) PositionCursor α where
  cursor _ := .start
  next cur q := cur.advance q.items
  remove cur q :=
    match cur.release with
    | (some i, cur) => (q.items[i]?, cur, ⟨q.items.eraseIdx i⟩)
    | (none, cur) => (none, cur, q)

instance : Buffered (Queue α) α where
  peekNext q := q.items.head?
  removeNext q := (q.items.head?, ⟨q.items.tail⟩)

instance : Noting (Queue α) := .silent _

def text [Describe α] (q : Queue α) : String := describe q.items

end Queue

end WatchedContainers
