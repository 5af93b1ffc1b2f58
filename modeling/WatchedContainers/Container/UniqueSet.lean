import WatchedContainers.Container.Cursor

/-!
# Sets without an order

No two elements of a `UniqueSet` are equal.  The element that came first stays: adding an equal
one changes nothing, and a removal gives back the element that was stored.
-/

namespace WatchedContainers

structure UniqueSet (α : Type) [BEq α] where
  items : List α
  distinct : items.Pairwise fun a b => (a == b) = false

namespace UniqueSet

variable {α : Type} [BEq α]

def toList (s : UniqueSet α) : List α := s.items

def empty : UniqueSet α := ⟨[], .nil⟩

def contains (s : UniqueSet α) (v : α) : Bool := s.items.any (· == v)

def filter (s : UniqueSet α) (keep : α → Bool) : UniqueSet α :=
  ⟨s.items.filter keep, s.distinct.filter keep⟩

def append (s : UniqueSet α) (v : α) (h : s.contains v = false) : UniqueSet α :=
  ⟨s.items ++ [v], List.pairwise_append.2
    ⟨s.distinct, List.pairwise_singleton _ _, fun a ha b hb => by
      rw [List.mem_singleton.1 hb]
      have hne := List.any_eq_false.1 h a ha
      exact Bool.eq_false_iff.2 hne⟩⟩

def insert (s : UniqueSet α) (v : α) : Bool × UniqueSet α :=
  if h : s.contains v = false then (true, s.append v h) else (false, s)

/-- Removes the element equal to `v` and gives it back. -/
def take (s : UniqueSet α) (v : α) : Option α × UniqueSet α :=
  (s.items.find? (· == v), s.filter fun a => !(a == v))

def retain (s : UniqueSet α) (keep : α → Bool) : Bool × UniqueSet α :=
  ((s.filter keep).items.length != s.items.length, s.filter keep)

instance : Collection (UniqueSet α) α where
  capabilities := .collection ||| .set
  size s := s.items.length
  contains := contains
  add := insert
  remove := take
  retain := retain
  clear _ := empty

instance : Traversal (UniqueSet α) (CopyCursor α) α where
  cursor s := { items := s.items }
  next cur _ := cur.advance
  remove cur s :=
    match cur.release with
    | (some v, cur) => ((s.take v).1, cur, (s.take v).2)
    | (none, cur) => (none, cur, s)

instance : Noting (UniqueSet α) := .silent _

end UniqueSet

end WatchedContainers
