import WatchedContainers.Container.Cursor

/-!
# Containers that take notes

Four containers for trying things out.  `NotedList` and `NotedSortedList` change as a list and a
sorted set do and note each change first; their batch operations go element by element.
`FixedList` notes insertions, replacements and removals but never changes.  `PlainList` announces
no capabilities, so it cannot be watched.
-/

namespace WatchedContainers

/-! ### Noted lists -/

structure NotedList (α : Type) where
  items : List α
  notes : List Call := []
deriving DecidableEq

namespace NotedList

variable {α : Type}

def toList (l : NotedList α) : List α := l.items

def change (l : NotedList α) (name : String) (position : Nat) (items : List α) : NotedList α :=
  ⟨items, l.notes ++ [⟨name, position⟩]⟩

instance [BEq α] : Collection (NotedList α) α where
  capabilities := .collection ||| .list
  size l := l.items.length
  contains l v := l.items.any (· == v)
  add l v := (true, l.change "add" l.items.length (l.items ++ [v]))
  remove l v :=
    match l.items.findIdx? (· == v) with
    | some i => (l.items[i]?, l.change "remove_value" i (l.items.eraseIdx i))
    | none => (none, l)
  retain l keep :=
    ((l.items.filter keep).length != l.items.length,
      l.change "retain_values" l.items.length (l.items.filter keep))
  clear l := l.change "clear" l.items.length []

instance : Traversal (NotedList α) PositionCursor α where
  cursor _ := .start
  next cur l := cur.advance l.items
  remove cur l :=
    match cur.release with
    | (some i, cur) => (l.items[i]?, cur, l.change "cursor_remove" i (l.items.eraseIdx i))
    | (none, cur) => (none, cur, l)

instance : Positional (NotedList α) α where
  get? l i := l.items[i]?
  insertAt l i v := l.change "insert_at" i (l.items.insertIdx i v)
  removeAt l i := (l.items[i]?, l.change "remove_at" i (l.items.eraseIdx i))
  setAt l i v := (l.items[i]?, l.change "set_at" i (l.items.set i v))

instance : Noting (NotedList α) := ⟨notes, fun l => { l with notes := [] }⟩

end NotedList

/-! ### Noted sorted lists -/

structure NotedSortedList (α : Type) where
  items : List α
  notes : List Call := []
deriving DecidableEq

namespace NotedSortedList

variable {α : Type}

def toList (l : NotedSortedList α) : List α := l.items

def change (l : NotedSortedList α) (name : String) (position : Nat) (items : List α) :
    NotedSortedList α :=
  ⟨items, l.notes ++ [⟨name, position⟩]⟩

variable [Ord α]

def position? (l : NotedSortedList α) (v : α) : Option Nat :=
  l.items.findIdx? fun a => compare v a == .eq

def add (l : NotedSortedList α) (v : α) : Bool × NotedSortedList α :=
  match l.position? v with
  | some _ => (false, l)
  | none =>
    let smaller := (l.items.takeWhile fun a => compare a v == .lt).length
    (true, l.change "add" smaller (l.items.insertIdx smaller v))

def remove (l : NotedSortedList α) (v : α) : Option α × NotedSortedList α :=
  match l.position? v with
  | some i => (l.items[i]?, l.change "remove_value" i (l.items.eraseIdx i))
  | none => (none, l)

instance : Collection (NotedSortedList α) α where
  capabilities := .collection ||| .sortedSet
  size l := l.items.length
  contains l v := (l.position? v).isSome
  add := add
  remove := remove
  retain l keep :=
    ((l.items.filter keep).length != l.items.length,
      l.change "retain_values" l.items.length (l.items.filter keep))
  clear l := l.change "clear" l.items.length []

def next (cur : ResumingCursor α) (l : NotedSortedList α) : Option α × ResumingCursor α :=
  match l.items.find? cur.rest.contains with
  | some v => (some v, cur.produce v)
  | none => (none, cur)

def removeLast (cur : ResumingCursor α) (l : NotedSortedList α) :
    Option α × ResumingCursor α × NotedSortedList α :=
  match cur.removable, cur.last.bind l.position? with
  | true, some i =>
    (l.items[i]?, { cur with removable := false },
      l.change "cursor_remove" i (l.items.eraseIdx i))
  | _, _ => (none, { cur with removable := false }, l)

instance : Traversal (NotedSortedList α) (ResumingCursor α) α where
  cursor _ := { bounds := .all }
  next := next
  remove := removeLast

instance : Sorted (NotedSortedList α) (ResumingCursor α) α where
  first l := l.items.head?
  last l := l.items.getLast?
  within l b := l.items.filter b.contains
  cursorWithin _ b := { bounds := b }

instance : Noting (NotedSortedList α) := ⟨notes, fun l => { l with notes := [] }⟩

end NotedSortedList

/-! ### Fixed lists -/

structure FixedList (α : Type) where
  items : List α
  notes : List Call := []
deriving DecidableEq

namespace FixedList

variable {α : Type}

def toList (l : FixedList α) : List α := l.items

def note (l : FixedList α) (name : String) (position : Nat) : FixedList α :=
  { l with notes := l.notes ++ [⟨name, position⟩] }

instance [BEq α] : Collection (FixedList α) α where
  capabilities := .collection ||| .list
  size l := l.items.length
  contains l v := l.items.any (· == v)
  add l _ := (false, l.note "add" l.items.length)
  remove l _ := (none, l)
  retain l _ := (false, l)
  clear l := l

instance : Traversal (FixedList α) PositionCursor α where
  cursor _ := .start
  next cur l := cur.advance l.items
  remove cur l := (none, cur, l)

instance : Positional (FixedList α) α where
  get? l i := l.items[i]?
  insertAt l i _ := l.note "insert_at" i
  removeAt l i := (l.items[i]?, l.note "remove_at" i)
  setAt l i _ := (l.items[i]?, l.note "set_at" i)

instance : Noting (FixedList α) := ⟨notes, fun l => { l with notes := [] }⟩

end FixedList

/-! ### Plain lists -/

structure PlainList (α : Type) where
  items : List α
deriving DecidableEq

namespace PlainList

variable {α : Type}

def toList (l : PlainList α) : List α := l.items

instance [BEq α] : Collection (PlainList α) α where
  capabilities := .empty
  size l := l.items.length
  contains l v := l.items.any (· == v)
  add l v := (true, ⟨l.items ++ [v]⟩)
  remove l v :=
    match l.items.findIdx? (· == v) with
    | some i => (l.items[i]?, ⟨l.items.eraseIdx i⟩)
    | none => (none, l)
  retain l keep := ((l.items.filter keep).length != l.items.length, ⟨l.items.filter keep⟩)
  clear _ := ⟨[]⟩

instance : Traversal (PlainList α) PositionCursor α where
  cursor _ := .start
  next cur l := cur.advance l.items
  remove cur l :=
    match cur.release with
    | (some i, cur) => (l.items[i]?, cur, ⟨l.items.eraseIdx i⟩)
    | (none, cur) => (none, cur, l)

instance : Noting (PlainList α) := .silent _

end PlainList

end WatchedContainers
