import WatchedContainers.Rehearsal.Stage

/-!
# Props

Hooks, handlers, listener values, factories and registries, made as a script specifies them.
-/

namespace WatchedContainers.Rehearsal

variable {α : Type}

abbrev Value := ListenerValue Party Special

abbrev PlayListener := Listener Party Special

abbrev PlayFactory (α : Type) := Factory Party (Stage α) Special

abbrev PlayRegistry (α : Type) := Registry Party (Stage α) Special

/-! ### Hooks and handlers -/

def makeHooks : HooksSpec → Run α HooksRef
  | .acceptAll => fun w => w.addHooks .acceptAll
  | .noShrinking => fun w => w.addHooks (.policy (.policy .noShrinking))
  | .readOnly => fun w => w.addHooks (.policy (.policy .readOnly))
  | .logging veto => fun w => w.addHooks (.policy (.policy (.logging "hooks" veto)))
  | .managed config => do
    let ref ← fun w => w.addHooks (.managed { config })
    modifyStage fun s => { s with remembered := some ref }
    return ref

def makeHandler : HandlerSpec → Run α HandlerRef
  | .acceptAll => fun w => w.newRoot .acceptAll .standard
  | .managed config => fun w => w.newRoot (.managed { config }) config
  | .over spec config => do
    let ref ← makeHooks spec
    fun w => w.rootOver ref config

/-! ### Listener values -/

/-- A listener of its own that passes everything on to a party. -/
def wrap (name : String) : Run α Party := do
  let serial := (← get).outside.wrappers
  modifyStage fun s => { s with wrappers := serial + 1 }
  return .wrapper serial name

def makeListeners (mask : Option Mask) :
    Option (Actor α) → Option (Actor α) → Run α (ListenerPair Party)
  | some p, some q => do
    return { pre := some (← mention .pre p), post := some (← mention .post q), mask }
  | some p, none => do
    let _ ← mention .pre p
    return { pre := some (← wrap p.name), mask }
  | none, some q => do
    let _ ← mention .post q
    return { post := some (← wrap q.name), mask }
  | none, none => return { mask }

def makeValue : ValueSpec α → Run α Value
  | .listeners pre post mask => return .listeners (← makeListeners mask pre post)
  | .hooks spec => return .hooks (← makeHooks spec)
  | .special v => return .other v

def makeListener (spec : ListenerSpec α) : Run α PlayListener :=
  return { value := ← makeValue spec.value, typeName := spec.typeName }

/-- No specification stands for no listener value. -/
def makeListener? : Option (ListenerSpec α) → Run α (Option PlayListener)
  | some spec => return some (← makeListener spec)
  | none => return none

/-! ### Factories and registries -/

variable [ObjectIdentity α] [Describe α] [BEq α]

/-- A factory that notes when it is asked. -/
def notingFactory (id : String) (answer : Value → Config → Run α (Option HooksRef)) :
    PlayFactory α where
  create container l config := (do
    let found ← answer l.value config
    write (.asked id container l.typeName config.maxViewDepth found.isSome)
    return found : Run α (Option HooksRef))

def makeFactory : FactorySpec → PlayFactory α
  | .ofListeners => .ofListeners observers
  | .readyMade => .readyMade
  | .readOnly id => notingFactory id fun
    | .other .readOnly, _ => return some (← makeHooks .readOnly)
    | _, _ => return none
  | .counting id => notingFactory id fun
    | .listeners s, config => do
      return some (← fun w => w.hooksWithListener observers config s)
    | _, _ => return none
  | .label id labels => notingFactory id fun
    | .other (.text t), _ => do
      if labels.contains t then
        return some (← fun w => w.addHooks (.policy (.policy (.logging (id ++ ":" ++ t) .empty))))
      else return none
    | _, _ => return none
  | .greedy id => notingFactory id fun _ _ => return some (← makeHooks .acceptAll)
  | .declining id => notingFactory id fun _ _ => return none

def registerIn (r : PlayRegistry α) (f : PlayFactory α) : Run α (PlayRegistry α) := do
  let element := (← get).outside.element
  fun w => r.register observers element f w

/-- The registry that exists from the start. -/
def sharedRegistry : PlayRegistry α := ⟨Registry.standardFactories observers⟩

def startRegistry : RegistryStart → Run α (PlayRegistry α)
  | .empty => return .empty
  | .standard => (Registry.standardFactories observers).foldlM registerIn .empty
  | .shared => return sharedRegistry

def makeRegistry (spec : RegistrySpec) : Run α (PlayRegistry α) := do
  let r ← startRegistry spec.start
  (spec.factories.map makeFactory).foldlM registerIn r

end WatchedContainers.Rehearsal
