import WatchedContainers.Rehearsal.Handlers
import WatchedContainers.Rehearsal.Bare
import WatchedContainers.Watched.Session

/-!
# Steps on watched containers and views

Steps are actions of a session.  A step that opens a view or an iterator carries the steps to be
played on it; it closes what it opened, and the container goes back to what it was borrowed from.
-/

namespace WatchedContainers.Rehearsal

variable {C κ α : Type} [ObjectIdentity α] [Describe α] [BEq α]

def Reply.ofResponse : Except Error (Response α) → Reply α
  | .error e => .failed e
  | .ok .nothing => .nothing
  | .ok (.flag b) => .flag b
  | .ok (.element v) => .element v
  | .ok (.elements vs) => .elements vs
  | .ok (.number n) => .plain (.ofNumber? n)

def Step.action? : Step α → Option (Action α)
  | .size => some (.query .size)
  | .isEmpty => some (.query .isEmpty)
  | .contains v => some (.query (.contains v))
  | .add v => some (.command (.add v))
  | .addAll vs => some (.command (.addAll vs))
  | .remove v => some (.command (.remove v))
  | .removeAll vs => some (.command (.removeAll vs))
  | .retainAll vs => some (.command (.retainAll vs))
  | .clear => some (.command .clear)
  | .get i => some (.query (.get i))
  | .addAt i v => some (.command (.addAt i v))
  | .addAllAt i vs => some (.command (.addAllAt i vs))
  | .removeAt i => some (.command (.removeAt i))
  | .set i v => some (.command (.set i v))
  | .peekNext => some (.query .peekNext)
  | .removeNext => some (.command .removeNext)
  | .count v => some (.query (.count v))
  | .addCopies v n => some (.command (.addCopies v n))
  | .removeCopies v n => some (.command (.removeCopies v n))
  | .first => some (.query .first)
  | .last => some (.query .last)
  | .inRange v => some (.query (.inRange v))
  | _ => none

def ListIteratorStep.action? : ListIteratorStep α → Option (Action α)
  | .hasNext => some (.query .hasNext)
  | .nextIndex => some (.query .nextIndex)
  | .next => some (.move .next)
  | .hasPrevious => some (.query .hasPrevious)
  | .previousIndex => some (.query .previousIndex)
  | .previous => some (.move .previous)
  | .remove => some (.command .removeLast)
  | .set v => some (.command (.setLast v))
  | .add v => some (.command (.insert v))
  | .on _ _ | .unknown => none

variable [Collection C α] [Traversal C κ α] [Noting C]

/-! ### Actions -/

def playAction (o : Offer C κ α) (x : Session C κ α) (a : Action α) :
    Run α (Reply α × Session C κ α) := fun w =>
  match x.act observers o.family a w with
  | some (r, x, w) => ((.ofResponse r, x), w)
  | none => ((.badInput, x), w)

/-- Opens a view or an iterator, or tells why not. -/
def openFrame (o : Offer C κ α) (x : Session C κ α) (opening : Opening α) :
    Run α (Except (Reply α) (Session C κ α)) := do
  match ← playAction o x (.openFrame opening) with
  | (.plain .nothing, x) => return .ok x
  | (reply, _) => return .error reply

def openFrames (o : Offer C κ α) (opening : Opening α) (x : Session C κ α) :
    Nat → Run α (Except (Reply α) (Session C κ α))
  | 0 => openFrame o x opening
  | more + 1 => do
    match ← openFrame o x opening with
    | .error reply => return .error reply
    | .ok x => openFrames o opening x more

def closeFrames (o : Offer C κ α) (x : Session C κ α) : Nat → Run α (Session C κ α)
  | 0 => return x
  | count + 1 => do
    let (_, x) ← playAction o x .close
    closeFrames o x count

/-! ### Iterators -/

def walkIteration (o : Offer C κ α) (selected : α → Bool) :
    Nat → Session C κ α → List α → List α → Run α ((List α × List α) × Session C κ α)
  | 0, x, kept, removed => return ((kept, removed), x)
  | fuel + 1, x, kept, removed => do
    match ← playAction o x (.move .next) with
    | (.element (some v), x) =>
      if selected v then do
        match ← playAction o x (.command .removeLast) with
        | (.plain (.flag true), x) => walkIteration o selected fuel x kept (removed ++ [v])
        | (_, x) => walkIteration o selected fuel x (kept ++ [v]) removed
      else walkIteration o selected fuel x (kept ++ [v]) removed
    | (_, x) => return ((kept, removed), x)

def playIterationStep (o : Offer C κ α) (x : Session C κ α) :
    IterationStep α → Run α (Reply α × Session C κ α)
  | .next => playAction o x (.move .next)
  | .remove => playAction o x (.command .removeLast)
  | .index => playAction o x (.query .index)
  | .walk values => do
    let ((kept, removed), x) ← walkIteration o (fun v => values.all fun vs => vs.any (· == v))
      (Collection.size x.container + 1) x [] []
    return (.walked (o.arranged kept) (o.arranged removed), x)
  | .on name step => do return (← playOn name step, x)
  | .unknown => return (.badInput, x)

def playListIteratorStep (o : Offer C κ α) (x : Session C κ α) (step : ListIteratorStep α) :
    Run α (Reply α × Session C κ α) := do
  match step, step.action? with
  | .on name step, _ => return (← playOn name step, x)
  | _, some a => playAction o x a
  | _, none => return (.badInput, x)

def addTally (counts : List (String × Nat)) (key : String) : List (String × Nat) :=
  if counts.any (·.1 == key) then counts.map fun p => if p.1 == key then (key, p.2 + 1) else p
  else counts ++ [(key, 1)]

def tally (entries : List (Entry α)) : List (String × Nat) :=
  entries.foldl (fun counts e =>
    match e with
    | .heard listener event _ => addTally counts (listener ++ " " ++ event.phase.name)
    | _ => counts) []

/-- The new part of the log, which is only counted if the order of the elements is open. -/
def news (o : Offer C κ α) : Run α (News α) := do
  let entries ← drain
  return if o.arrange.isSome then .tally (tally entries) else .log entries

def playScript {step : Type} (o : Offer C κ α)
    (play : Session C κ α → step → Run α (Reply α × Session C κ α)) :
    List step → Session C κ α → Run α (List (Answer (Reply α) α) × Session C κ α)
  | [], x => return ([], x)
  | s :: rest, x => do
    let (reply, x) ← play x s
    let a := { reply, news := ← news o, shown := .nothing }
    let (as, x) ← playScript o play rest x
    return (a :: as, x)

def playIterator {step : Type} (o : Offer C κ α) (x : Session C κ α) (opening : Opening α)
    (play : Session C κ α → step → Run α (Reply α × Session C κ α)) (script : List step) :
    Run α (Reply α × Session C κ α) := do
  match ← openFrame o x opening with
  | .error reply => return (reply, x)
  | .ok x =>
    let (as, x) ← playScript o play script x
    return (.answers as, ← closeFrames o x 1)

/-! ### Steps -/

/-- The identity of what is in front, and where it starts if it is a segment of a list. -/
def frontPlace (x : Session C κ α) : ContainerId × Option Nat :=
  match x.frames with
  | .subList v :: _ => (v.id, some v.segment.start)
  | .sortedView v :: _ => (v.id, none)
  | _ => (x.root.id, none)

def frontText? (o : Offer C κ α) (x : Session C κ α) : Option String :=
  match x.frames, o.family with
  | [], _ => o.text.map x.root.text
  | .subList v :: _, .list _ =>
    some (SubList.text (α := α) ⟨v.segment.over x.container, v.handler, v.id⟩)
  | .sortedView v :: _, .sorted _ _ =>
    some (SortedView.text ⟨v.range.over x.container, v.handler, v.id⟩)
  | _, _ => none

/-- What is shown after a step: the container, or the elements of the view. -/
def shown (o : Offer C κ α) (x : Session C κ α) : Shown α :=
  match x.frames, x.answer? o.family .values with
  | [], _ => .state (o.contents x.container)
  | _, some (.elements vs) => .values vs
  | _, _ => .nothing

/-- A step that is not nested in another step. -/
def playFlatStep (o : Offer C κ α) (x : Session C κ α) (step : Step α) :
    Run α (Reply α × Session C κ α) := do
  match step with
  | .on name step => return (← playOn name step, x)
  | .handler step => return (← playHandlerStep x.handler step, x)
  | .id => return (.number (frontPlace x).1.number, x)
  | .offset => return ((frontPlace x).2.elim .badInput .number, x)
  | .text => return ((frontText? o x).elim .badInput fun t => .plain (.text t), x)
  | .iterate script => playIterator o x .iteration (playIterationStep o) script
  | .listIterate script => playIterator o x .listIterator (playListIteratorStep o) script
  | step =>
    match step.action? with
    | some a => playAction o x a
    | none => return (.badInput, x)

/-- Opens views of views, plays on the innermost one and closes them. -/
def playInView (o : Offer C κ α) (x : Session C κ α) (opening : Opening α) (times : Nat)
    (play : Session C κ α → Run α (List (Answer (Reply α) α) × Session C κ α)) :
    Run α (Reply α × Session C κ α) := do
  match ← openFrames o opening x times with
  | .error reply => return (reply, x)
  | .ok inner =>
    let (as, x) ← play inner
    let depth := ((← get).handler inner.handler).depth
    let (id, offset) := frontPlace inner
    return (.view id offset depth as, ← closeFrames o x (times + 1))

mutual

def playStep (o : Offer C κ α) (x : Session C κ α) (step : Step α) :
    Run α (Reply α × Session C κ α) :=
  match step with
  | .subList start stop times steps =>
    playInView o x (.subList start stop) (times - 1) fun x => playNested o x steps
  | .range bounds times steps =>
    playInView o x (.range bounds) (times - 1) fun x => playNested o x steps
  | .subSet start stop steps =>
    playInView o x (.subSet start stop) 0 fun x => playNested o x steps
  | step => playFlatStep o x step
  termination_by structural step

def playNested (o : Offer C κ α) (x : Session C κ α) (steps : List (Step α)) :
    Run α (List (Answer (Reply α) α) × Session C κ α) := do
  match steps with
  | [] => return ([], x)
  | step :: rest =>
    let (reply, x) ← playStep o x step
    let a ← answer reply (shown o x)
    let (as, x) ← playNested o x rest
    return (a :: as, x)
  termination_by structural steps

end

end WatchedContainers.Rehearsal
