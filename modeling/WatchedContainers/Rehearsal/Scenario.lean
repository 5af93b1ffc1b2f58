import WatchedContainers.Rehearsal.Views

/-!
# Scenarios

A container is given, watched in one of three ways, and played upon.  A scenario may give the
container back: its handler then loses the handle that the container held, and only handlers that
were named can be called.
-/

namespace WatchedContainers.Rehearsal

variable {C κ α : Type} [ObjectIdentity α] [Describe α] [BEq α]
  [Collection C α] [Traversal C κ α] [Noting C]

/-! ### Steps on a watched container -/

def playAfterwards : Step α → Run α (Reply α)
  | .on name step => playOn name step
  | .drop => return .nothing
  | _ => return .plain .dropped

def playSteps (o : Offer C κ α) :
    Option (Session C κ α) → List (Step α) → Run α (List (Answer (Reply α) α))
  | _, [] => return []
  | none, step :: rest => do
    let a ← answer (← playAfterwards step) .nothing
    return a :: (← playSteps o none rest)
  | some x, .drop :: rest => do
    modify (·.release x.root.handler)
    let a ← answer (.contents (o.contents x.container)) .nothing
    return a :: (← playSteps o none rest)
  | some x, step :: rest => do
    let (reply, x) ← playStep o x step
    let a ← answer reply (shown o x)
    return a :: (← playSteps o (some x) rest)

/-! ### Whole scenarios -/

def makeWatched (inner : C) : Make α → Run α (Except Error (Watched C))
  | .shared listener => do
    let l ← makeListener? listener
    fun w => Watched.withListener observers sharedRegistry inner l .standard w
  | .resolved registry listener config => do
    let r ← makeRegistry registry
    let l ← makeListener? listener
    fun w => Watched.withListener observers r inner l config w
  | .handler spec boundBefore => do
    let h ← makeHandler spec
    if boundBefore then
      let id ← fun w => w.freshId
      let _ ← fun w => w.bind observers h id .collection
    fun w => Watched.withRoot observers inner h w

/-- How a scenario went: the watched container with its root handler, what was noted until then,
and the answers to the steps. -/
structure Outcome (α : Type) where
  made : Except Error (ContainerId × HandlerInfo)
  log : List (Entry α)
  answers : List (Answer (Reply α) α)

def runScenario (o : Offer C κ α) (inner : C) (make : Make α) (steps : List (Step α)) :
    Run α (Outcome α) := do
  match ← makeWatched (Noting.settle inner) make with
  | .error e => return { made := .error e, log := ← drain, answers := [] }
  | .ok c =>
    let info ← handlerInfo c.handler
    let log ← drain
    return { made := .ok (c.id, info), log, answers := ← playSteps o (some ⟨c, []⟩) steps }

/-- How a scenario goes on an empty stage, if its steps are understood. -/
def playScenario (element : String) (tracing : Bool) (o : Offer C κ α) (inner : C)
    (make : Make α) (steps : List (Step α)) : Option (Outcome α) :=
  let outcome := ((runScenario o inner make steps).run { outside := { element, tracing } }).1
  (understood? outcome.answers).map fun _ => outcome

end WatchedContainers.Rehearsal
