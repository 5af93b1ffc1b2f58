import WatchedContainers.Rehearsal.Props

/-!
# Steps on handlers

Steps that can be played on any handler, and the scripts that consist of such steps and of steps
on registries.
-/

namespace WatchedContainers.Rehearsal

variable {α : Type} [ObjectIdentity α] [Describe α] [BEq α]

/-! ### One handler -/

def handlerInfo (h : HandlerRef) : Run α HandlerInfo := do
  let w ← get
  let x := w.handler h
  let root := (w.root? h).bind fun r => (w.handler r).container?
  let hooks ← fun w => w.reachHooks observers h
  return { bound := x.isBound, container := x.container?, capabilities := x.capabilities
           supported := x.raisable, isRoot := x.isRoot, isView := x.isView
           viewOffset := x.viewOffset, depth := x.depth, config := x.config, root
           hooks := hooks.isOk, text := x.text }

def makeView (h : HandlerRef) : Option (Nat × Nat) → Run α (Except Error HandlerRef)
  | some (start, stop) => fun w => w.makeRangeView observers h start stop
  | none => fun w => w.makeKeyedView observers h

/-- Makes a view of a view and so on, each bound to a new identity.  Gives the last handler, how
many views were made, and what stopped it. -/
def makeChain (range : Option (Nat × Nat)) (capabilities : Capabilities) :
    Nat → HandlerRef → Nat → Run α (HandlerRef × Nat × Option Error)
  | 0, h, made => return (h, made, none)
  | times + 1, h, made => do
    match ← makeView h range with
    | .error e => return (h, made, some e)
    | .ok v =>
      let id ← fun w => w.freshId
      match ← fun w => w.bind observers v id capabilities with
      | .error e => return (h, made, some e)
      | .ok () =>
        modify (·.release h)
        makeChain range capabilities times v (made + 1)

def nameView (made : Except Error HandlerRef) (name : String) : Run α (Reply α) := do
  match made with
  | .ok v =>
    nameHandler name v
    return .nothing
  | .error e => return .failed e

def sortNames (names : List String) : List String := names.mergeSort fun a b => (compare a b).isLE

/-- Plays a step on the handler `h`.  Two handlers are compared by reaching the hooks of both, those
of the other one first, even if one of them has lost its root. -/
def playHandlerStep (h : HandlerRef) : HandlerStep α → Run α (Reply α)
  | .call c => return .plain (← callHandler observers h c)
  | .info => return .info (← handlerInfo h)
  | .bind capabilities => do
    let id ← fun w => w.freshId
    return .plain (.ofUnit (← fun w => w.bind observers h id capabilities))
  | .keep name => do
    modify (·.retain h)
    nameHandler name h
    return .nothing
  | .names => return .plain (.names (sortNames ((← get).outside.names.map (·.1))))
  | .rangeView start stop name => do nameView (← makeView h (some (start, stop))) name
  | .keyedView name => do nameView (← makeView h none) name
  | .chain times range name => do
    modify (·.retain h)
    let (last, made, stopped) ← makeChain range ((← get).handler h).capabilities times h 0
    let x := (← get).handler last
    nameHandler name last
    return .chained made stopped x.depth x.viewOffset
  | .sameHooks other => do
    match ← handlerNamed? other with
    | none => return .badInput
    | some o =>
      let theirs ← fun w => w.reachHooks observers o
      let ours ← fun w => w.reachHooks observers h
      match ours, theirs with
      | .ok a, .ok b => return .flag (a == b)
      | .error e, _ | _, .error e => return .failed e

/-- Plays a step on the handler of that name. -/
def playOn (name : String) (step : HandlerStep α) : Run α (Reply α) := do
  match ← handlerNamed? name with
  | some h => playHandlerStep h step
  | none => return .badInput

def answer (reply : Reply α) (shown : Shown α) : Run α (Answer (Reply α) α) := do
  return { reply, news := .log (← drain), shown }

/-! ### Handlers and registries by name -/

/-- The registries of a script.  The first one exists from the start. -/
structure Registries (α : Type) where
  registries : Array (PlayRegistry α)
  names : List (String × Nat) := []

namespace Registries

def place? (rs : Registries α) (name : String) : Option Nat :=
  (rs.names.find? (·.1 == name)).map (·.2)

def named? (rs : Registries α) (name : String) : Option (Nat × PlayRegistry α) := do
  let i ← rs.place? name
  return (i, ← rs.registries[i]?)

def setName (rs : Registries α) (name : String) (i : Nat) : Registries α :=
  { rs with names := rs.names.filter (·.1 != name) ++ [(name, i)] }

end Registries

abbrev ProtocolRun (α : Type) := StateT (Registries α) (Run α)

/-- What happens on the stage leaves the registries as they are. -/
def onStage {β : Type} (r : Run α β) : ProtocolRun α β := StateT.lift r

def playRegistry (spec : RegistrySpec) (name : String) : ProtocolRun α Unit := do
  let rs ← get
  match spec.start, rs.registries[0]? with
  | .shared, some shared =>
    let r ← onStage ((spec.factories.map makeFactory).foldlM registerIn shared)
    set ({ rs with registries := rs.registries.setIfInBounds 0 r }.setName name 0)
  | _, _ =>
    let r ← onStage (makeRegistry spec)
    set ({ rs with registries := rs.registries.push r }.setName name rs.registries.size)

def playResolve (r : PlayRegistry α) (listener : Option (ListenerSpec α)) (config : Config)
    (name : String) : Run α (Reply α) := do
  let id ← fun w => w.freshId
  let l ← makeListener? listener
  match ← fun w => r.resolve observers id l config w with
  | .ok h =>
    nameHandler name h
    return .nothing
  | .error e => return .failed e

def playProtocolStep : ProtocolStep α → ProtocolRun α (Reply α)
  | .new spec name => onStage do
    nameHandler name (← makeHandler spec)
    return .nothing
  | .registry spec name => do
    playRegistry spec name
    return .nothing
  | .register registry factory => do
    match (← get).named? registry with
    | some (i, r) =>
      let r ← onStage (registerIn r (makeFactory factory))
      modify fun rs => { rs with registries := rs.registries.setIfInBounds i r }
      return .nothing
    | none => return .badInput
  | .factories registry => do
    match (← get).named? registry with
    | some (_, r) => return .number r.factories.length
    | none => return .badInput
  | .sameRegistry registry other => do
    match (← get).place? registry, (← get).place? other with
    | some i, some j => return .flag (i == j)
    | _, _ => return .badInput
  | .resolve registry listener config name => do
    match (← get).named? registry with
    | some (_, r) => onStage (playResolve r listener config name)
    | none => return .badInput
  | .drop handler => onStage do return .flag (← forget handler)
  | .nextId => onStage do
    let id ← fun w => w.freshId
    return .number id.number
  | .handler name step => onStage (playOn name step)
  | .unknown => return .badInput

/-- Plays a script on handlers and registries, if it is understood. -/
def playProtocol (element : String) (tracing : Bool) (steps : List (ProtocolStep α)) :
    Option (List (Answer (Reply α) α)) :=
  let play : ProtocolRun α (List (Answer (Reply α) α)) := steps.mapM fun step => do
    let reply ← playProtocolStep step
    onStage (answer reply .nothing)
  understood? (((play.run { registries := #[sharedRegistry] }).run
    { outside := { element, tracing } }).1).1

end WatchedContainers.Rehearsal
