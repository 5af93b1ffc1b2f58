import WatchedContainers.Container.Cursor

/-!
# Sorted sets

The elements of a `SortedSet` ascend strictly.  As in every set the element that came first
stays.  A range query is refused for bounds in the wrong order (`range?`), and every reading
operation asks for the order of the bounds before it queries.
-/

namespace WatchedContainers

structure SortedSet (α : Type) [Ord α] where
  items : List α
  ascending : items.Pairwise Precedes

namespace SortedSet

variable {α : Type} [Ord α]

def toList (s : SortedSet α) : List α := s.items

def empty : SortedSet α := ⟨[], .nil⟩

def filter (s : SortedSet α) (keep : α → Bool) : SortedSet α :=
  ⟨s.items.filter keep, s.ascending.filter keep⟩

/-! ### Insertion -/

/-- The elements with `v` at its place, unless an equal element is there. -/
def place (v : α) : List α → List α
  | [] => [v]
  | a :: rest =>
    match compare v a with
    | .lt => v :: a :: rest
    | .eq => a :: rest
    | .gt => a :: place v rest

theorem mem_place {v x : α} {l : List α} (h : x ∈ place v l) : x = v ∨ x ∈ l := by
  induction l with
  | nil => exact Or.inl (List.mem_singleton.1 h)
  | cons a rest ih =>
    unfold place at h
    split at h
    · rcases List.mem_cons.1 h with h | h
      · exact Or.inl h
      · exact Or.inr h
    · exact Or.inr h
    · rcases List.mem_cons.1 h with h | h
      · exact Or.inr (h ▸ List.mem_cons_self)
      · rcases ih h with h | h
        · exact Or.inl h
        · exact Or.inr (List.mem_cons_of_mem _ h)

theorem pairwise_place [Std.TransOrd α] (v : α) {l : List α} (h : l.Pairwise Precedes) :
    (place v l).Pairwise Precedes := by
  induction l with
  | nil => exact List.pairwise_singleton _ _
  | cons a rest ih =>
    obtain ⟨ha, hr⟩ := List.pairwise_cons.1 h
    unfold place
    split
    next hc =>
      refine List.pairwise_cons.2 ⟨fun x hx => ?_, h⟩
      rcases List.mem_cons.1 hx with hx | hx
      · exact hx ▸ hc
      · exact Std.TransCmp.lt_trans hc (ha x hx)
    next => exact h
    next hc =>
      refine List.pairwise_cons.2 ⟨fun x hx => ?_, ih hr⟩
      rcases mem_place hx with hx | hx
      · exact hx ▸ Std.OrientedCmp.lt_of_gt hc
      · exact ha x hx

def contains (s : SortedSet α) (v : α) : Bool := s.items.any fun a => compare v a == .eq

def insert [Std.TransOrd α] (s : SortedSet α) (v : α) : Bool × SortedSet α :=
  (!s.contains v, ⟨place v s.items, pairwise_place v s.ascending⟩)

/-! ### Removal -/

def take (s : SortedSet α) (v : α) : Option α × SortedSet α :=
  (s.items.find? fun a => compare v a == .eq, s.filter fun a => compare v a != .eq)

def retain (s : SortedSet α) (keep : α → Bool) : Bool × SortedSet α :=
  ((s.filter keep).items.length != s.items.length, s.filter keep)

/-! ### Ranges -/

/-- The elements within the bounds.  The query is refused if the lower bound exceeds the upper
one, or if both are excluded and equal. -/
def range? (s : SortedSet α) (b : Bounds α) : Option (List α) :=
  match b.lower.value?, b.upper.value? with
  | some x, some y =>
    if compare x y == .gt then none
    else if compare x y == .eq && b.lower.isExcluded && b.upper.isExcluded then none
    else some (s.items.filter b.contains)
  | _, _ => some (s.items.filter b.contains)

def within (s : SortedSet α) (b : Bounds α) : List α :=
  if b.isOrdered then (s.range? b).getD [] else []

def sizeWithin (s : SortedSet α) (b : Bounds α) : Nat :=
  if b.isOrdered then ((s.range? b).getD []).length else 0

instance [Std.TransOrd α] : Collection (SortedSet α) α where
  capabilities := .collection ||| .set ||| .sortedSet
  size s := s.items.length
  contains := contains
  add := insert
  remove := take
  retain := retain
  clear _ := empty

def cursorWithin (_ : SortedSet α) (b : Bounds α) : ResumingCursor α := { bounds := b }

def next (cur : ResumingCursor α) (s : SortedSet α) : Option α × ResumingCursor α :=
  match (s.within cur.rest).head? with
  | some v => (some v, cur.produce v)
  | none => (none, cur)

def removeLast (cur : ResumingCursor α) (s : SortedSet α) :
    Option α × ResumingCursor α × SortedSet α :=
  if cur.removable then
    match cur.last with
    | some v => ((s.take v).1, { cur with removable := false }, (s.take v).2)
    | none => (none, { cur with removable := false }, s)
  else (none, cur, s)

instance : Traversal (SortedSet α) (ResumingCursor α) α where
  cursor s := s.cursorWithin .all
  next := next
  remove := removeLast

instance : Sorted (SortedSet α) (ResumingCursor α) α where
  first s := s.items.head?
  last s := s.items.getLast?
  within := within
  sizeWithin := sizeWithin
  cursorWithin := cursorWithin

instance : Noting (SortedSet α) := .silent _

def text [Describe α] (s : SortedSet α) : String := Text.set (s.items.map describe)

end SortedSet

end WatchedContainers
