import WatchedContainers.Watched.Mutation
import WatchedContainers.Watched.Run

/-!
# Behaviours of iterators

What an iterator does can be said without the container it walks on, of states of its own.  Two
behaviours stand here.

* A `Zipper` has the elements in front of it on one side and those behind it on the other, and may
  point at one of the two next to it.  List iterators behave like this.
* A `Tour` visits elements in an order that was fixed when it began, and marks those that are
  removed.  Iterations behave like this.
-/

namespace WatchedContainers

variable {C Z κ α : Type}

/-- How an iterator moves, what it answers and what its commands stand for, in states from `Z`.
What it does not offer is missing. -/
structure Behaviour (Z α : Type) where
  move : Move → Z → Option (Option α × Z)
  answer : Query α → Z → Option (Response α)
  mutation : Command α → Z → Option (Except Error (Mutation Z α))

/-! ### Episodes -/

/-- A turn without the session: what was done, what came of it and what was heard. -/
structure Episode (α : Type) where
  action : Action α
  response : Except Error (Response α)
  heard : List (Heard α)

def Turn.episode (t : Turn C κ α) : Episode α := ⟨t.action, t.response, t.heard⟩

def Episode.produced? (e : Episode α) : Option α :=
  match e.action, e.response with
  | .move .next, .ok (.element v) => v
  | _, _ => none

/-! ### Zippers -/

/-- A zipper between the elements `before`, the nearest one first, and the elements `after`.  It
rests, or it points at the element that it moved over last. -/
inductive Zipper (α : Type) where
  | resting (before after : List α)
  /-- It moved forward over `v`, which now ends what is before it. -/
  | passed (before : List α) (v : α) (after : List α)
  /-- It moved back over `v`, which now heads what is after it. -/
  | returned (before : List α) (v : α) (after : List α)

namespace Zipper

def ofList (l : List α) : Zipper α := resting [] l

def before : Zipper α → List α
  | resting b _ | returned b _ _ => b
  | passed b v _ => v :: b

def after : Zipper α → List α
  | resting _ a | passed _ _ a => a
  | returned _ v a => v :: a

def toList (z : Zipper α) : List α := z.before.reverse ++ z.after

def pointed? : Zipper α → Option Nat
  | resting _ _ => none
  | passed b _ _ | returned b _ _ => some b.length

def next (z : Zipper α) : Option α × Zipper α :=
  match z.after with
  | [] => (none, z)
  | v :: a => (some v, passed z.before v a)

def previous (z : Zipper α) : Option α × Zipper α :=
  match z.before with
  | [] => (none, z)
  | v :: b => (some v, returned b v z.after)

def remove : Zipper α → Except Error (Mutation (Zipper α) α)
  | resting _ _ => .error .noCurrentElement
  | passed b v a | returned b v a =>
    .ok ⟨.removeIterated b.length v, .removeIterated b.length v, .flag true, resting b a⟩

def set (x : α) : Zipper α → Except Error (Mutation (Zipper α) α)
  | resting _ _ => .error .noCurrentElement
  | passed b v a =>
    .ok ⟨.setIterated b.length x, .setIterated b.length x v, .flag true, passed b x a⟩
  | returned b v a =>
    .ok ⟨.setIterated b.length x, .setIterated b.length x v, .flag true, returned b x a⟩

/-- Puts `x` at the end of what is before the zipper, which then rests. -/
def insert (x : α) (z : Zipper α) : Mutation (Zipper α) α :=
  ⟨.addIterated z.before.length x, .addIterated z.before.length x, .flag true,
    resting (x :: z.before) z.after⟩

def behaviour : Behaviour (Zipper α) α where
  move
    | .next, z => some z.next
    | .previous, z => some z.previous
  answer
    | .hasNext, z => some (.flag (!z.after.isEmpty))
    | .nextIndex, z => some (.number (some z.before.length))
    | .hasPrevious, z => some (.flag (!z.before.isEmpty))
    | .previousIndex, z => some (.number (z.before.tail?.map List.length))
    | _, _ => none
  mutation
    | .removeLast, z => some z.remove
    | .setLast x, z => some (z.set x)
    | .insert x, z => some (.ok (z.insert x))
    | _, _ => none

end Zipper

/-! ### Tours -/

/-- A tour of some elements. -/
structure Tour (α : Type) where
  /-- The elements that were produced, the latest one first, and whether each of them was removed
  since. -/
  produced : List (α × Bool)
  /-- The elements still to come. -/
  ahead : List α

namespace Tour

/-- The elements produced by then, in order, but for those that were removed. -/
def kept (produced : List (α × Bool)) : List α :=
  ((produced.filter fun p => !p.2).map (·.1)).reverse

def start (order : List α) : Tour α := ⟨[], order⟩

def order (t : Tour α) : List α := (t.produced.map (·.1)).reverse ++ t.ahead

def left (t : Tour α) : List α := kept t.produced ++ t.ahead

/-- The element produced last, unless it was removed.  Its index counts the elements produced
earlier that have not been removed. -/
def current? (t : Tour α) : Option (Nat × α) :=
  match t.produced with
  | (v, false) :: earlier => some ((kept earlier).length, v)
  | _ => none

def next (t : Tour α) : Option α × Tour α :=
  match t.ahead with
  | [] => (none, t)
  | v :: rest => (some v, ⟨(v, false) :: t.produced, rest⟩)

def remove (t : Tour α) : Except Error (Mutation (Tour α) α) :=
  match t.produced with
  | (v, false) :: earlier =>
    .ok ⟨.removeIterated (kept earlier).length v, .removeIterated (kept earlier).length v,
      .flag true, ⟨(v, true) :: earlier, t.ahead⟩⟩
  | _ => .error .noCurrentElement

def behaviour : Behaviour (Tour α) α where
  move
    | .next, t => some t.next
    | .previous, _ => none
  answer
    | .index, t => some (.number (t.current?.map (·.1)))
    | _, _ => none
  mutation
    | .removeLast, t => some t.remove
    | _, _ => none

end Tour

end WatchedContainers
