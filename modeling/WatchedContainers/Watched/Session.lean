import WatchedContainers.Container.Family
import WatchedContainers.Watched.Command

/-!
# Sessions

A session is a watched container with the views and iterators that are open on it.  A view or an
iterator borrows the container from what it was opened on, so only the one opened last can be
used, and they are closed in the opposite order.  The container itself is kept in one place, and a
frame is a view or iterator with the container taken out of it.
-/

namespace WatchedContainers

variable {ρ σ C D κ α : Type}

/-! ### Parts over another container -/

/-- The same segment of another list. -/
def Segment.over (s : Segment C) (d : D) : Segment D := ⟨d, s.start, s.tail⟩

def SubRange.over (r : SubRange C α) (d : D) : SubRange D α := ⟨d, r.bounds⟩

def Iteration.over (it : Iteration C κ α) (d : D) : Iteration D κ α :=
  ⟨d, it.cursor, it.size, it.nextIndex, it.current⟩

def ListIterator.over (it : ListIterator C) (d : D) : ListIterator D :=
  ⟨it.segment.over d, it.cursor, it.last⟩

/-! ### Frames -/

inductive Frame (κ α : Type) where
  | subList (v : SubList Unit)
  | sortedView (v : SortedView Unit α)
  | iteration (it : Iteration Unit κ α) (handler : HandlerRef)
  | listIterator (it : ListIterator Unit) (handler : HandlerRef)

namespace Frame

def handler : Frame κ α → HandlerRef
  | subList v => v.handler
  | sortedView v => v.handler
  | iteration _ h => h
  | listIterator _ h => h

def ofSubList (v : SubList C) : Frame κ α := .subList ⟨v.segment.over (), v.handler, v.id⟩

def ofSortedView (v : SortedView C α) : Frame κ α := .sortedView ⟨v.range.over (), v.handler, v.id⟩

end Frame

/-- A watched container, and the frames open on it, the one opened last in front. -/
structure Session (C κ α : Type) where
  root : Watched C
  frames : List (Frame κ α) := []

/-- Steps of an iterator. -/
inductive Move where
  | next
  | previous

inductive Opening (α : Type) where
  | subList (start stop : Nat)
  | range (bounds : Bounds α)
  | subSet (start stop : α)
  | iteration
  | listIterator

inductive Action (α : Type) where
  | command (c : Command α)
  | query (q : Query α)
  | move (m : Move)
  | openFrame (o : Opening α)
  | close

namespace Session

def container (s : Session C κ α) : C := s.root.inner

def handler (s : Session C κ α) : HandlerRef :=
  match s.frames with
  | [] => s.root.handler
  | f :: _ => f.handler

def withContainer (s : Session C κ α) (c : C) : Session C κ α :=
  { s with root := { s.root with inner := c } }

/-- The container changed, and with it the frame opened last. -/
def update (s : Session C κ α) (c : C) (f : Frame κ α) : Session C κ α :=
  { s.withContainer c with frames := f :: s.frames.tail }

def push (s : Session C κ α) (f : Frame κ α) : Session C κ α := { s with frames := f :: s.frames }

instance [Noting C] : Noting (Session C κ α) where
  calls s := Noting.calls s.container
  settle s := s.withContainer (Noting.settle s.container)

variable [Collection C α] [Traversal C κ α] [BEq α]

/-! ### Commands -/

def onContainer (operation : Operation C α (Response α)) :
    Operation (Session C κ α) α (Response α) :=
  operation.on container withContainer id

/-- Positional commands treat the whole list as a segment that leaves nothing out. -/
def onWhole (operation : Operation (Segment C) α (Response α)) :
    Operation (Session C κ α) α (Response α) :=
  operation.on (fun s => .whole s.container) (fun s x => s.withContainer x.list) id

def onSubList (v : SubList Unit) (operation : Operation (Segment C) α (Response α)) :
    Operation (Session C κ α) α (Response α) :=
  operation.on (fun s => v.segment.over s.container)
    (fun s x => s.update x.list (.subList { v with segment := x.over () })) id

def onSortedView (v : SortedView Unit α) (operation : Operation (SubRange C α) α (Response α)) :
    Operation (Session C κ α) α (Response α) :=
  operation.on (fun s => v.range.over s.container)
    (fun s x => s.update x.set (.sortedView { v with range := x.over () })) id

def onIteration (it : Iteration Unit κ α) (h : HandlerRef)
    (operation : Operation (Iteration C κ α) α (Response α)) :
    Operation (Session C κ α) α (Response α) :=
  operation.on (fun s => it.over s.container)
    (fun s x => s.update x.container (.iteration (x.over ()) h)) id

def onListIterator (it : ListIterator Unit) (h : HandlerRef)
    (operation : Operation (ListIterator C) α (Response α)) :
    Operation (Session C κ α) α (Response α) :=
  operation.on (fun s => it.over s.container)
    (fun s x => s.update x.segment.list (.listIterator (x.over ()) h)) id

def rootOperation? (fam : Family C κ α) (c : Command α) :
    Option (Operation (Session C κ α) α (Response α)) :=
  match Collection.operation? c, fam with
  | some op, _ => some (onContainer op)
  | none, .plain => none
  | none, .list _ => (Segment.positional? c).map onWhole
  | none, .bag _ => (Counted.operation? c).map onContainer
  | none, .buffer _ => (Buffered.operation? c).map onContainer
  | none, .sorted _ _ => none

def operation? (fam : Family C κ α) (c : Command α) (s : Session C κ α) :
    Option (Operation (Session C κ α) α (Response α)) :=
  match s.frames, fam with
  | [], fam => rootOperation? fam c
  | .subList v :: _, .list _ => (Segment.operation? c).map (onSubList v)
  | .sortedView v :: _, .sorted _ _ => (SubRange.operation? c).map (onSortedView v)
  | .iteration it h :: _, _ => (Iteration.operation? c).map (onIteration it h)
  | .listIterator it h :: _, .list _ => (ListIterator.operation? c).map (onListIterator it h)
  | _, _ => none

/-! ### Queries -/

def rootAnswer? (fam : Family C κ α) (c : C) : Query α → Option (Response α)
  | .size => some (.number (some (Collection.size c)))
  | .isEmpty => some (.flag (Collection.isEmpty c))
  | .contains v => some (.flag (Collection.contains c v))
  | q =>
    match fam, q with
    | .list _, .get i => some (.element ((Segment.whole c).get? i))
    | .list _, .values => some (.elements (Segment.whole c).values)
    | .bag _, .count v => some (.number (some (Counted.count c v)))
    | .buffer _, .peekNext => some (.element (Buffered.peekNext c))
    | .sorted _ _, .first => some (.element (Sorted.first c))
    | .sorted _ _, .last => some (.element (Sorted.last c))
    | _, _ => none

def segmentAnswer? [Positional C α] (s : Segment C) : Query α → Option (Response α)
  | .size => some (.number (some s.length))
  | .isEmpty => some (.flag s.isEmpty)
  | .contains v => some (.flag (s.contains v))
  | .values => some (.elements s.values)
  | .get i => some (.element (s.get? i))
  | _ => none

def rangeAnswer? [Sorted C κ α] [Ord α] (r : SubRange C α) : Query α → Option (Response α)
  | .size => some (.number (some r.length))
  | .isEmpty => some (.flag r.isEmpty)
  | .contains v => some (.flag (r.contains v))
  | .values => some (.elements r.values)
  | .first => some (.element r.first)
  | .last => some (.element r.last)
  | .inRange v => some (.flag (r.inRange v))
  | _ => none

def listIteratorAnswer? [Positional C α] (it : ListIterator C) : Query α → Option (Response α)
  | .hasNext => some (.flag it.hasNext)
  | .nextIndex => some (.number (some it.nextIndex))
  | .hasPrevious => some (.flag it.hasPrevious)
  | .previousIndex => some (.number it.previousIndex?)
  | _ => none

def answer? (fam : Family C κ α) (q : Query α) (s : Session C κ α) : Option (Response α) :=
  match s.frames, fam with
  | [], fam => rootAnswer? fam s.container q
  | .subList v :: _, .list _ => segmentAnswer? (v.segment.over s.container) q
  | .sortedView v :: _, .sorted _ _ => rangeAnswer? (v.range.over s.container) q
  | .iteration it _ :: _, _ =>
    match q with
    | .index => some (.number it.index?)
    | _ => none
  | .listIterator it _ :: _, .list _ => listIteratorAnswer? (it.over s.container) q
  | _, _ => none

/-! ### Steps of iterators -/

def move? (fam : Family C κ α) (m : Move) (s : Session C κ α) :
    Option (Option α × Session C κ α) :=
  match s.frames, fam, m with
  | .iteration it h :: _, _, .next =>
    let (v, x) := (it.over s.container).next
    some (v, s.update s.container (.iteration (x.over ()) h))
  | .listIterator it h :: _, .list _, .next =>
    let (v, x) := (it.over s.container).next
    some (v, s.update s.container (.listIterator (x.over ()) h))
  | .listIterator it h :: _, .list _, .previous =>
    let (v, x) := (it.over s.container).previous
    some (v, s.update s.container (.listIterator (x.over ()) h))
  | _, _, _ => none

/-! ### Views and iterators -/

/-- The segment that is in front, if the container is a list and no iterator is open. -/
def segment? (s : Session C κ α) : Option (Segment C) :=
  match s.frames with
  | [] => some (.whole s.container)
  | .subList v :: _ => some (v.segment.over s.container)
  | _ => none

/-- The range that is in front, if the container is a sorted set and no iterator is open. -/
def range? [Ord α] (s : Session C κ α) : Option (SubRange C α) :=
  match s.frames with
  | [] => some ⟨s.container, .all⟩
  | .sortedView v :: _ => some (v.range.over s.container)
  | _ => none

/-- An iteration over the container, or over the range that is in front. -/
def iteration? (fam : Family C κ α) (s : Session C κ α) : Option (Iteration C κ α) :=
  match s.frames, fam with
  | [], _ => some (.along s.container (Traversal.cursor s.container))
  | .sortedView v :: _, .sorted _ _ =>
    some (.along s.container (Sorted.cursorWithin s.container v.range.bounds))
  | _, _ => none

def open? (obs : Observers ρ σ α) (fam : Family C κ α) (o : Opening α) (s : Session C κ α)
    (w : World ρ σ) : Option (Except Error (Frame κ α) × World ρ σ) :=
  match o, fam with
  | .subList start stop, .list _ =>
    s.segment?.map fun x =>
      let (v, w) := SubList.openIn obs s.handler x start stop w
      (v.map .ofSubList, w)
  | .range bounds, .sorted _ _ =>
    s.range?.map fun x =>
      let (v, w) := SortedView.openIn obs s.handler x bounds w
      (v.map .ofSortedView, w)
  | .subSet start stop, .sorted _ _ =>
    s.range?.map fun x =>
      let (v, w) := SortedView.openBetween obs s.handler x start stop w
      (v.map .ofSortedView, w)
  | .iteration, fam => (s.iteration? fam).map fun it => (.ok (.iteration (it.over ()) s.handler), w)
  | .listIterator, .list _ =>
    s.segment?.map fun x => (.ok (.listIterator ((ListIterator.start x).over ()) s.handler), w)
  | _, _ => none

/-! ### Actions -/

def act [Noting C] [ObjectIdentity α] (obs : Observers ρ σ α) (fam : Family C κ α) (a : Action α)
    (s : Session C κ α) (w : World ρ σ) :
    Option (Except Error (Response α) × Session C κ α × World ρ σ) :=
  match a with
  | .command c => (s.operation? fam c).map fun op => perform obs s.handler op s w
  | .query q => (s.answer? fam q).map fun r => (.ok r, s, w)
  | .move m => (s.move? fam m).map fun (v, s) => (.ok (.element v), s, w)
  | .openFrame o =>
    (s.open? obs fam o w).map fun
      | (.ok f, w) => (.ok .nothing, s.push f, w)
      | (.error e, w) => (.error e, s, w)
  | .close =>
    match s.frames with
    | [] => none
    | _ :: rest => some (.ok .nothing, { s with frames := rest }, w)

end Session

namespace Standard

def size (k : Standard α C κ) (c : C) : Nat :=
  letI := k.collection
  Collection.size c

def capabilities (k : Standard α C κ) : Capabilities :=
  letI := k.collection
  Collection.capabilities C

def operation? (k : Standard α C κ) (command : Command α) (s : Session C κ α) :
    Option (Operation (Session C κ α) α (Response α)) :=
  letI := k.equality
  letI := k.collection
  letI := k.traversal
  s.operation? k.family command

def answer? (k : Standard α C κ) (q : Query α) (s : Session C κ α) : Option (Response α) :=
  letI := k.equality
  letI := k.collection
  letI := k.traversal
  s.answer? k.family q

def move? (k : Standard α C κ) (m : Move) (s : Session C κ α) :
    Option (Option α × Session C κ α) :=
  letI := k.equality
  letI := k.collection
  letI := k.traversal
  s.move? k.family m

def open? (k : Standard α C κ) (obs : Observers ρ σ α) (o : Opening α) (s : Session C κ α)
    (w : World ρ σ) : Option (Except Error (Frame κ α) × World ρ σ) :=
  letI := k.collection
  letI := k.traversal
  s.open? obs k.family o w

def act [ObjectIdentity α] (k : Standard α C κ) (obs : Observers ρ σ α) (a : Action α)
    (s : Session C κ α) (w : World ρ σ) :
    Option (Except Error (Response α) × Session C κ α × World ρ σ) :=
  letI := k.equality
  letI := k.collection
  letI := k.traversal
  letI := k.noting
  s.act obs k.family a w

end Standard

end WatchedContainers
