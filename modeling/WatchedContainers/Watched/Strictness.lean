import WatchedContainers.Container.StrictList
import WatchedContainers.Watched.Session

/-!
# Strictness of lists

What has to hold for nothing to go wrong below the operations of a watched list.

* `Session.play` plays actions among any parties; on a strict list it tells whether the list was
  ever used at a position it is not meant for.
* `Session.differences`: the numbers that are taken from one another when positions are worked out.
  Every subtraction has to be exact.
* `Plan.Certain`: a plan that finds what it reports.
-/

namespace WatchedContainers

variable {ρ σ C S κ α β : Type}

/-! ### Plays -/

/-- The responses to the actions that were offered, and what they led to. -/
structure Play (ρ σ C κ α : Type) where
  responses : List (Except Error (Response α))
  session : Session C κ α
  world : World ρ σ

def Play.after (p : Play ρ σ C κ α) (r : Except Error (Response α)) : Play ρ σ C κ α :=
  { p with responses := r :: p.responses }

/-- Plays the actions one after the other.  Those that are not offered are passed over. -/
def Session.play [Collection C α] [Traversal C κ α] [BEq α] [Noting C] [ObjectIdentity α]
    (obs : Observers ρ σ α) (fam : Family C κ α) :
    List (Action α) → Session C κ α → World ρ σ → Play ρ σ C κ α
  | [], s, w => ⟨[], s, w⟩
  | a :: rest, s, w =>
    match s.act obs fam a w with
    | none => Session.play obs fam rest s w
    | some (r, s', w') => (Session.play obs fam rest s' w').after r

def Standard.play [ObjectIdentity α] (k : Standard α C κ) (obs : Observers ρ σ α)
    (actions : List (Action α)) (s : Session C κ α) (w : World ρ σ) : Play ρ σ C κ α :=
  letI := k.equality
  letI := k.collection
  letI := k.traversal
  letI := k.noting
  Session.play obs k.family actions s w

theorem Standard.play_cons [ObjectIdentity α] (k : Standard α C κ) (obs : Observers ρ σ α)
    (a : Action α) (rest : List (Action α)) (s : Session C κ α) (w : World ρ σ) :
    k.play obs (a :: rest) s w =
      match k.act obs a s w with
      | none => k.play obs rest s w
      | some (r, s', w') => (k.play obs rest s' w').after r := rfl

def Watched.strict (c : Watched (Sequence α)) : Watched (StrictList α) :=
  ⟨.ofSequence c.inner, c.handler, c.id⟩

def Session.strict (s : Session (Sequence α) κ α) : Session (StrictList α) κ α :=
  ⟨s.root.strict, s.frames⟩

def Play.strict (p : Play ρ σ (Sequence α) κ α) : Play ρ σ (StrictList α) κ α :=
  ⟨p.responses, p.session.strict, p.world⟩

/-! ### Differences -/

/-- A number that is taken from another one. -/
structure Difference where
  whole : Nat
  taken : Nat
deriving DecidableEq

/-- There is enough to take from. -/
def Difference.Exact (d : Difference) : Prop := d.taken ≤ d.whole

/-- The length of a segment takes what stands in front of it and behind it from the size of the
list; its end takes what stands behind it. -/
def Segment.differences [Collection C α] (s : Segment C) : List Difference :=
  let size := Collection.size s.list
  [⟨size, s.start⟩, ⟨size - s.start, s.tail⟩, ⟨size, s.tail⟩]

/-- A removal takes one from the size, and the cursor steps back by one.  Neither happens unless
there is an element to remove. -/
def Iteration.differences (it : Iteration C PositionCursor α) : List Difference :=
  it.current.toList.map (fun _ => ⟨it.size, 1⟩) ++
    it.cursor.current.toList.map fun _ => ⟨it.cursor.next, 1⟩

def Frame.differences [BEq α] (c : Sequence α) : Frame PositionCursor α → List Difference
  | .subList v => (v.segment.over c).differences
  | .sortedView _ => []
  | .iteration it _ => it.differences
  | .listIterator it _ => (it.segment.over c).differences

/-- What is taken from what, at the whole list and at all that is open on it. -/
def Session.differences [BEq α] (s : Session (Sequence α) PositionCursor α) : List Difference :=
  (Segment.whole s.container).differences ++ s.frames.flatMap (·.differences s.container)

/-! ### Certain plans -/

/-- Once it is accepted, the plan reports what came of it and does not fail. -/
structure Plan.Certain (p : Plan S α β) : Prop where
  reports : p.commit.report.isSome
  succeeds : ∃ r, p.commit.result = .ok r

/-- The index of the element that an iterator in front moved over last, unless it was removed. -/
def Session.current? (s : Session C κ α) : Option Nat :=
  match s.frames with
  | .iteration it _ :: _ => it.index?
  | .listIterator it _ :: _ => it.last
  | _ => none

/-- What an operation may come to: a certain plan, or an error.  The element it works on is missing
only where no iterator in front has one. -/
def Session.Settles (s : Session C κ α) : Except Error (Plan S α β) → Prop
  | .ok plan => plan.Certain
  | .error e => e = .noCurrentElement → s.current? = none

end WatchedContainers
