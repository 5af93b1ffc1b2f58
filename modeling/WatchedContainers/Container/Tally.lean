import WatchedContainers.Container.CountedBag

/-!
# Tallies

A tally does with its counts what a counted bag does, but it promises nothing of them: a count may
stand at 0.  Nothing may be taken from such a count, and whoever does it breaks the tally.  A broken
tally stays broken.
-/

namespace WatchedContainers

structure Tally (α : Type) where
  /-- What is counted under each element, unless the tally is broken. -/
  counts? : Option (List (α × Nat))
  reportsAdded : Bool
deriving DecidableEq

namespace Tally

variable {α : Type}

def ofBag [Ord α] (b : CountedBag α) : Tally α := ⟨some b.counts, b.reportsAdded⟩

def counts (t : Tally α) : List (α × Nat) := t.counts?.getD []

def elements (t : Tally α) : List α := t.counts.map (·.1)

def change (t : Tally α) (f : List (α × Nat) → List (α × Nat)) : Tally α :=
  { t with counts? := t.counts?.map f }

def broken (t : Tally α) : Tally α := { t with counts? := none }

variable [Ord α]

def entry? (t : Tally α) (v : α) : Option (α × Nat) :=
  t.counts.find? fun p => compare v p.1 == .eq

def add (t : Tally α) (v : α) : Bool × Tally α := (true, t.change (CountedBag.raise v 1))

/-- Takes one from the count of `v`, if `v` is listed, and forgets `v` when 0 is left. -/
def remove (t : Tally α) (v : α) : Option α × Tally α :=
  match t.entry? v with
  | none => (none, t)
  | some p =>
    if p.2 = 0 then (none, t.broken)
    else (some (if p.2 - 1 = 0 then p.1 else v), t.change (CountedBag.lower v 1))

/-- Tells whether fewer elements are listed than before. -/
def retain (t : Tally α) (keep : α → Bool) : Bool × Tally α :=
  ((t.counts.filter fun p => keep p.1).length != t.counts.length,
    t.change (·.filter fun p => keep p.1))

def addCopies (t : Tally α) (v : α) (n : Nat) : Bool × Tally α :=
  (t.reportsAdded, if 0 < n then t.change (CountedBag.raise v n) else t)

/-- Takes `n` from the count of `v`, or all that is there. -/
def removeCopies (t : Tally α) (v : α) (n : Nat) : Bool × Tally α :=
  match t.entry? v with
  | none => (false, t)
  | some _ => (n != 0, t.change (CountedBag.lower v n))

instance : Collection (Tally α) α where
  capabilities := .collection ||| .bag
  size t := t.counts.foldr (fun e n => e.2 + n) 0
  contains t v := (t.entry? v).isSome
  add := add
  remove := remove
  retain := retain
  clear t := t.change fun _ => []

instance : Traversal (Tally α) (CopyCursor α) α where
  cursor t := { items := t.counts.flatMap fun p => List.replicate p.2 p.1 }
  next cur _ := cur.advance
  remove cur t :=
    match cur.release with
    | (some v, cur) => ((t.remove v).1, cur, (t.remove v).2)
    | (none, cur) => (none, cur, t)

instance : Counted (Tally α) α where
  count t v := ((t.entry? v).map (·.2)).getD 0
  addCopies := addCopies
  removeCopies := removeCopies

instance : Noting (Tally α) := .silent _

end Tally

end WatchedContainers
