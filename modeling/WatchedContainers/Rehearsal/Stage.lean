import WatchedContainers.Rehearsal.Answer

/-!
# The stage

The outside world of a rehearsal: the actors with the number of their calls, the log, and the
names given to handlers.  Here it is laid down what actors and policies do when they are called.
An actor that calls a handler may cause itself to be called again, so the behaviour is given for
each depth of nesting.
-/

namespace WatchedContainers.Rehearsal

/-- Fixed policies of hooks. -/
inductive Policy where
  | noShrinking
  | readOnly
  /-- Notes every event under a name and vetoes the kinds of a mask. -/
  | logging (name : String) (veto : Mask)
deriving DecidableEq

/-- A party that the handlers know.  An actor may also be registered behind a wrapper, which is a
listener of its own. -/
inductive Party where
  | actor (name : String)
  | wrapper (serial : Nat) (name : String)
  | policy (p : Policy)
deriving DecidableEq

structure Cast (α : Type) where
  actor : Actor α
  calls : Nat := 0

structure Stage (α : Type) where
  /-- The name of the type of the elements. -/
  element : String
  tracing : Bool
  cast : List ((Phase × String) × Cast α) := []
  log : Array (Entry α) := #[]
  wrappers : Nat := 0
  /-- The managed hooks made last on their own. -/
  remembered : Option HooksRef := none
  names : List (String × HandlerRef) := []

abbrev Scene (α : Type) := World Party (Stage α)

abbrev Run (α : Type) := StateM (Scene α)

variable {α : Type}

/-! ### The log -/

def modifyStage (f : Stage α → Stage α) : Run α Unit :=
  modify fun w => { w with outside := f w.outside }

def write (e : Entry α) : Run α Unit :=
  modifyStage fun s => { s with log := s.log.push e }

/-- The log since it was drained last. -/
def drain : Run α (List (Entry α)) := do
  let entries := (← get).outside.log.toList
  modifyStage fun s => { s with log := #[] }
  return entries

/-! ### The cast -/

/-- The part of an actor in one phase. -/
abbrev Part := Phase × String

/-- The first mention of a part settles its actor. -/
def enlist (p : Phase) (a : Actor α) (cast : List (Part × Cast α)) : List (Part × Cast α) :=
  if cast.any (·.1 == (p, a.name)) then cast else cast ++ [((p, a.name), { actor := a })]

/-- Counts one call of an actor, and gives the actor with the number of the call. -/
def countCall (part : Part) (cast : List (Part × Cast α)) :
    Option (Actor α × Nat) × List (Part × Cast α) :=
  match cast.find? (·.1 == part) with
  | some (_, c) =>
    (some (c.actor, c.calls + 1),
      cast.map fun p => if p.1 == part then (p.1, { p.2 with calls := p.2.calls + 1 }) else p)
  | none => (none, cast)

/-- The actor of that name, who is new or has been mentioned before. -/
def mention (p : Phase) (a : Actor α) : Run α Party := do
  modifyStage fun s => { s with cast := enlist p a s.cast }
  return .actor a.name

def Party.label : Party → String
  | .actor name => name
  | _ => "?"

/-! ### Names of handlers -/

def handlerNamed? (name : String) : Run α (Option HandlerRef) := do
  return ((← get).outside.names.find? (·.1 == name)).map (·.2)

/-- Takes a name off its handler, which loses a handle. -/
def forget (name : String) : Run α Bool := do
  match ← handlerNamed? name with
  | some h =>
    modify (·.release h)
    modifyStage fun s => { s with names := s.names.filter (·.1 != name) }
    return true
  | none => return false

/-- Gives a name to a handler; the name holds a handle that the caller gives up. -/
def nameHandler (name : String) (h : HandlerRef) : Run α Unit := do
  let _ ← forget name
  modifyStage fun s => { s with names := s.names ++ [(name, h)] }

/-! ### Calls of a handler -/

/-- Runs a call of the handler `h`, with the outside parties behaving as `obs` says. -/
def callHandler (obs : Observers Party (Stage α) α) [ObjectIdentity α] (h : HandlerRef) :
    HandlerCall (Actor α) α → Run α Plain
  | .addListener p l mask => do
    let party ← mention p l
    return .ofUnit (← fun w => w.addListener obs h p party mask)
  | .removeListener p l => do
    let party ← mention p l
    return .ofFlag (← fun w => w.removeListener obs h p party)
  | .listeners p => do
    match ← fun w => w.listeners obs h p with
    | .ok ls => return .names (ls.map Party.label)
    | .error e => return .failed e
  | .subscribe p l => do
    match (← get).outside.remembered with
    | some ref =>
      let party ← mention p l
      modify (·.subscribe obs ref p party)
      return .nothing
    | none => return .badInput
  | .hooksSummary => do
    let w ← get
    match w.outside.remembered.map w.hooksAt with
    | some (.managed s) => return .summary s.text s.config
    | _ => return .badInput
  | .propose m size => return .ofFlag (← fun w => w.propose obs h m size)
  | .conclude c size => return .ofUnit (← fun w => w.conclude obs h c size)
  | .unknown _ => return .badInput

/-! ### The behaviour of the parties -/

def Veto.holds [BEq α] (v : Veto α) (e : Event α) (call : Nat) : Bool :=
  v.mask.all e.covered
    && v.subjects.all (fun vs => e.subject?.any fun x => vs.any (· == x))
    && v.batchHas.all (fun x => e.batch?.any fun vs => vs.any (· == x))
    && v.sizeAtLeast.all (fun n => decide (e.preSize ≥ n))
    && v.indexAtLeast.all (fun n => e.index?.any fun i => decide (i ≥ n))
    && v.copiesAtLeast.all (fun n => decide (e.repetitions ≥ n))
    && v.view.all (fun b => e.isView == b)
    && v.calls.all (fun ns => ns.any (· == call))

variable [ObjectIdentity α] [Describe α]

/-- Notes an event that reaches an actor or a policy. -/
def hear (listener : String) (full : Bool) (e : Event α) : Run α Unit := do
  let handler := ((← get).handler e.handler).text
  let detail : Detail :=
    { text := e.text, debugText := e.debugText, isPre := e.isPre, isView := e.isView, handler }
  write (.heard listener e (if full then some detail else none))

def playActs (obs : Observers Party (Stage α) α) (a : Actor α) (e : Event α) (call : Nat) :
    Run α Unit :=
  a.acts.forM fun act => do
    if act.turn.all (· == call) then
      let reply ← callHandler obs e.handler act.call
      write (.acted a.name act.call reply)

variable [BEq α]

def callActor (obs : Observers Party (Stage α) α) (p : Phase) (name : String) (e : Event α) :
    Run α (Option (Actor α × Nat)) := do
  let (found, cast) := countCall (p, name) (← get).outside.cast
  modifyStage fun s => { s with cast }
  match found with
  | some (a, call) =>
    hear a.name a.full e
    playActs obs a e call
    return some (a, call)
  | none => return none

def actorDecides (obs : Observers Party (Stage α) α) (name : String) (e : Event α) :
    Run α Bool := do
  match ← callActor obs .pre name e with
  | some (a, call) => return !a.veto.any fun v => v.holds e call
  | none => return true

def actorNotified (obs : Observers Party (Stage α) α) (name : String) (e : Event α) :
    Run α Unit := do
  let _ ← callActor obs .post name e

def policyDecides (p : Policy) (e : Event α) : Run α Bool :=
  match p with
  | .noShrinking => return e.kind.trend != .shrinks
  | .readOnly => return false
  | .logging name veto => do
    hear name false e
    return !e.covered veto

def policyNotified (p : Policy) (e : Event α) : Run α Unit :=
  match p with
  | .logging name _ => hear name false e
  | _ => return ()

/-- The behaviour of all parties, as long as calls nest no deeper than `depth`. -/
def observersTo (depth : Nat) : Observers Party (Stage α) α :=
  match depth with
  | 0 =>
    { decide := fun _ _ w => (true, w)
      notify := fun _ _ w => w
      trace := fun t s => if s.tracing then { s with log := s.log.push (.traced t) } else s
      note := fun c s => { s with log := s.log.push (.called c) } }
  | depth + 1 =>
    { decide := fun party e w =>
        match party with
        | .actor name | .wrapper _ name => (actorDecides (observersTo depth) name e).run w
        | .policy p => (policyDecides p e).run w
      notify := fun party e w =>
        match party with
        | .actor name | .wrapper _ name => ((actorNotified (observersTo depth) name e).run w).2
        | .policy p => ((policyNotified p e).run w).2
      trace := fun t s => if s.tracing then { s with log := s.log.push (.traced t) } else s
      note := fun c s => { s with log := s.log.push (.called c) } }

/-- How deep calls of actors may nest.  Actors that call each other and come to an end do so long
before this depth. -/
def nesting : Nat := 1000000

def observers : Observers Party (Stage α) α := observersTo nesting

end WatchedContainers.Rehearsal
