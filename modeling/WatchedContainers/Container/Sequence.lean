import WatchedContainers.Container.Cursor

/-!
# Sequences

A list with positional access, which appends what is added to it and tells equal elements apart
by their position.  Equality of elements need not be reflexive.
-/

namespace WatchedContainers

structure Sequence (α : Type) where
  items : List α
deriving DecidableEq

namespace Sequence

variable {α : Type}

def toList (s : Sequence α) : List α := s.items

section

variable [BEq α]

def remove (s : Sequence α) (v : α) : Option α × Sequence α :=
  match s.items.findIdx? (· == v) with
  | some i => (s.items[i]?, ⟨s.items.eraseIdx i⟩)
  | none => (none, s)

def retain (s : Sequence α) (keep : α → Bool) : Bool × Sequence α :=
  ((s.items.filter keep).length != s.items.length, ⟨s.items.filter keep⟩)

instance : Collection (Sequence α) α where
  capabilities := .collection ||| .list
  size s := s.items.length
  contains s v := s.items.any (· == v)
  add s v := (true, ⟨s.items ++ [v]⟩)
  addAll s vs := (!vs.isEmpty, ⟨s.items ++ vs⟩)
  remove := remove
  retain := retain
  clear _ := ⟨[]⟩

end

instance : Traversal (Sequence α) PositionCursor α where
  cursor _ := .start
  next cur s := cur.advance s.items
  remove cur s :=
    match cur.release with
    | (some i, cur) => (s.items[i]?, cur, ⟨s.items.eraseIdx i⟩)
    | (none, cur) => (none, cur, s)

instance : Positional (Sequence α) α where
  get? s i := s.items[i]?
  insertAt s i v := ⟨s.items.insertIdx i v⟩
  insertAllAt s i vs := (!vs.isEmpty, ⟨s.items.take i ++ vs ++ s.items.drop i⟩)
  removeAt s i := (s.items[i]?, ⟨s.items.eraseIdx i⟩)
  setAt s i v := (s.items[i]?, ⟨s.items.set i v⟩)
  removeRange s start stop := ⟨s.items.take start ++ s.items.drop stop⟩

instance : Noting (Sequence α) := .silent _

def text [Describe α] (s : Sequence α) : String := describe s.items

end Sequence

end WatchedContainers
