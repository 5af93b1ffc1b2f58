import WatchedContainers.Watched.Run

/-!
# Requested ranges

A view of a sorted set is opened with the bounds that are requested of it, at the set itself or
within the view in front.  What the views that are open have to do with the requests is told by the
turns that opened them (`Course.requests`).

An ordered set refuses some queries (`SortedSet.range?`), and reading a range does not let this be
seen.  The strict readings here do: they have no result if a query was refused.
-/

namespace WatchedContainers

variable {C κ α : Type}

/-! ### Requests -/

namespace Opening

def headSet (stop : α) : Opening α := .range ⟨.unbounded, .excluded stop⟩

def tailSet (start : α) : Opening α := .range ⟨.included start, .unbounded⟩

def requested? : Opening α → Option (Bounds α)
  | .range b => some b
  | .subSet start stop => some ⟨.included start, .excluded stop⟩
  | _ => none

end Opening

/-- What is open after a turn, by the bounds that were requested of it. -/
def Turn.stack (t : Turn C κ α) (opened : List (Option (Bounds α))) :
    List (Option (Bounds α)) :=
  match t.action, t.response with
  | .openFrame o, .ok _ => o.requested? :: opened
  | .close, .ok _ => opened.tail
  | _, _ => opened

/-- The bounds that were requested of the views that are still open, the last one first. -/
def Course.requests (c : Course C κ α) : List (Bounds α) :=
  (c.turns.foldl (fun opened t => t.stack opened) []).filterMap id

def boundsOf : List (Frame κ α) → Bounds α
  | .sortedView v :: _ => v.range.bounds
  | _ => .all

def Session.bounds (s : Session C κ α) : Bounds α := boundsOf s.frames

/-! ### Strict readings -/

namespace SortedSet

variable [Ord α]

def within? (s : SortedSet α) (b : Bounds α) : Option (List α) :=
  if b.isOrdered then s.range? b else some []

def sizeWithin? (s : SortedSet α) (b : Bounds α) : Option Nat :=
  if b.isOrdered then (s.range? b).map List.length else some 0

def next? (cur : ResumingCursor α) (s : SortedSet α) : Option (Option α × ResumingCursor α) :=
  (s.within? cur.rest).map fun l =>
    match l.head? with
    | some v => (some v, cur.produce v)
    | none => (none, cur)

/-- What is read off a view that shows the elements that pass the test. -/
def filteredAnswer? (s : SortedSet α) (inRange : α → Bool) : Query α → Option (Response α)
  | .inRange v => some (.flag (inRange v))
  | .values => some (.elements (s.items.filter inRange))
  | .size => some (.number (some (s.items.filter inRange).length))
  | .isEmpty => some (.flag (s.items.filter inRange).isEmpty)
  | .first => some (.element (s.items.filter inRange).head?)
  | .last => some (.element (s.items.filter inRange).getLast?)
  | .contains v => some (.flag ((s.items.filter inRange).any fun x => compare v x == .eq))
  | _ => none

end SortedSet

end WatchedContainers
