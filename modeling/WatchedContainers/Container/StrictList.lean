import WatchedContainers.Container.Sequence

/-!
# Strict lists

A list that insists on the positions its operations are meant for: an insertion up to its size, a
removal or a replacement below it, a range in order and within it.  A call at any other position
breaks the list, and a broken list stays broken.  A list that is not broken is a sequence.
-/

namespace WatchedContainers

structure StrictList (α : Type) where
  /-- The elements, unless the list is broken. -/
  items? : Option (List α)
deriving DecidableEq

namespace StrictList

variable {α : Type}

def ofSequence (s : Sequence α) : StrictList α := ⟨some s.items⟩

def items (l : StrictList α) : List α := l.items?.getD []

/-- Changes the elements, or breaks the list if that is not allowed. -/
def change (l : StrictList α) (allowed : Bool) (f : List α → List α) : StrictList α :=
  ⟨if allowed then l.items?.map f else none⟩

def insertAll (l : StrictList α) (index : Nat) (vs : List α) : StrictList α :=
  l.change (index ≤ l.items.length) fun items => items.take index ++ vs ++ items.drop index

def erase (l : StrictList α) (index : Nat) : StrictList α :=
  l.change (index < l.items.length) (·.eraseIdx index)

instance [BEq α] : Collection (StrictList α) α where
  capabilities := .collection ||| .list
  size l := l.items.length
  contains l v := l.items.any (· == v)
  add l v := (true, l.change true (· ++ [v]))
  addAll l vs := (!vs.isEmpty, l.change true (· ++ vs))
  remove l v :=
    match l.items.findIdx? (· == v) with
    | some i => (l.items[i]?, l.erase i)
    | none => (none, l)
  retain l keep :=
    ((l.items.filter keep).length != l.items.length, l.change true (·.filter keep))
  clear l := l.change true fun _ => []

instance : Traversal (StrictList α) PositionCursor α where
  cursor _ := .start
  next cur l := cur.advance l.items
  remove cur l :=
    match cur.release with
    | (some i, cur) => (l.items[i]?, cur, l.erase i)
    | (none, cur) => (none, cur, l)

instance : Positional (StrictList α) α where
  get? l i := l.items[i]?
  insertAt l i v := l.change (i ≤ l.items.length) (·.insertIdx i v)
  insertAllAt l i vs := (!vs.isEmpty, l.insertAll i vs)
  removeAt l i := (l.items[i]?, l.erase i)
  setAt l i v := (l.items[i]?, l.change (i < l.items.length) (·.set i v))
  removeRange l start stop :=
    l.change (start ≤ stop && stop ≤ l.items.length) fun items =>
      items.take start ++ items.drop stop

instance : Noting (StrictList α) := .silent _

end StrictList

end WatchedContainers
