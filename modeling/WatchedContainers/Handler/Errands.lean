import Mathlib.Logic.Relation
import WatchedContainers.Handler.Dispatch
import WatchedContainers.Handler.Listeners

/-!
# Errands at managed hooks

Listeners are registered, removed and listed, and events are dispatched, in any order; and a
listener may do the same from inside its own call.

Each of the two lists of listeners is guarded: while somebody reads it nobody can change it, and
while somebody changes it nobody can even read it.  Whoever cannot have a list fails, and that is
noted.  A dispatch holds the list only until it has its copy.
-/

namespace WatchedContainers

variable {ρ σ α : Type}

/-! ### Guards -/

/-- Who holds a list: some who read it, or one who changes it. -/
structure Guard where
  readers : Nat := 0
  changing : Bool := false
deriving DecidableEq

/-- A way to hold a list: how its guard is taken, if it can be had, and how it is given back. -/
structure Hold where
  take : Guard → Option Guard
  give : Guard → Guard

namespace Hold

def reading : Hold where
  take g := if g.changing then none else some { g with readers := g.readers + 1 }
  give g := { g with readers := g.readers - 1 }

def changing : Hold where
  take g := if g.changing ∨ g.readers ≠ 0 then none else some { g with changing := true }
  give g := { g with changing := false }

end Hold

structure Guards where
  pre : Guard := {}
  post : Guard := {}
  /-- Whether any errand has failed. -/
  failed : Bool := false
deriving DecidableEq

namespace Guards

def guarding (g : Guards) : Phase → Guard
  | .pre => g.pre
  | .post => g.post

def withGuard (g : Guards) (p : Phase) (x : Guard) : Guards :=
  match p with
  | .pre => { g with pre := x }
  | .post => { g with post := x }

def take (g : Guards) (p : Phase) (hold : Hold) : Guards :=
  match hold.take (g.guarding p) with
  | some x => g.withGuard p x
  | none => { g with failed := true }

def give (g : Guards) (p : Phase) (hold : Hold) : Guards :=
  g.withGuard p (hold.give (g.guarding p))

end Guards

/-- A world with the guards of the two lists at one place. -/
abbrev GuardedWorld (ρ σ : Type) := World ρ (σ × Guards)

namespace World

def guards (w : GuardedWorld ρ σ) : Guards := w.outside.2

def withGuards (w : GuardedWorld ρ σ) (f : Guards → Guards) : GuardedWorld ρ σ :=
  { w with outside := (w.outside.1, f w.outside.2) }

def holding {β : Type} (p : Phase) (hold : Hold) (f : GuardedWorld ρ σ → β × GuardedWorld ρ σ)
    (w : GuardedWorld ρ σ) : β × GuardedWorld ρ σ :=
  let (b, w) := f (w.withGuards (·.take p hold))
  (b, w.withGuards (·.give p hold))

end World

/-! ### Errands -/

inductive Errand (ρ α : Type) where
  | add (p : Phase) (l : ρ) (mask : Mask)
  /-- Registers a listener with the default mask of the hooks. -/
  | subscribe (p : Phase) (l : ρ)
  | remove (p : Phase) (l : ρ)
  | list (p : Phase)
  | decide (e : Event α)
  | notify (e : Event α)

/-- What comes of an errand. -/
inductive Receipt (ρ : Type) where
  | done
  | removed (found : Bool)
  | listed (listeners : List ρ)
  | decided (accepted : Bool)
deriving DecidableEq

namespace World

def serve [DecidableEq ρ] (obs : Observers ρ (σ × Guards) α) (root : HandlerRef) (ref : HooksRef)
    (x : Errand ρ α) (w : GuardedWorld ρ σ) : Except Error (Receipt ρ) × GuardedWorld ρ σ :=
  match x with
  | .add p l mask =>
    let (r, w) := w.holding p .changing (·.addListener obs root p l mask)
    (r.map fun _ => .done, w)
  | .subscribe p l => w.holding p .changing fun w => (.ok .done, w.subscribe obs ref p l)
  | .remove p l =>
    let (r, w) := w.holding p .changing (·.removeListener obs root p l)
    (r.map .removed, w)
  | .list p =>
    let (r, w) := w.holding p .reading (·.listeners obs root p)
    (r.map .listed, w)
  | .decide e =>
    let (hooks, w) := w.holding .pre .reading fun w => (w.hooksAt ref, w)
    let (accepted, w) := hooks.decide obs e w
    (.ok (.decided accepted), w)
  | .notify e =>
    let (hooks, w) := w.holding .post .reading fun w => (w.hooksAt ref, w)
    (.ok .done, hooks.notify obs e w)

/-- Does an errand, and notes if it failed. -/
def attend [DecidableEq ρ] (obs : Observers ρ (σ × Guards) α) (root : HandlerRef) (ref : HooksRef)
    (x : Errand ρ α) (w : GuardedWorld ρ σ) : Except Error (Receipt ρ) × GuardedWorld ρ σ :=
  match w.serve obs root ref x with
  | (.ok r, w) => (.ok r, w)
  | (.error e, w) => (.error e, w.withGuards fun g => { g with failed := true })

/-- The root has managed hooks with that configuration, nobody holds their lists, and no errand has
failed. -/
structure Open (w : GuardedWorld ρ σ) (root : HandlerRef) (ref : HooksRef) (config : Config) :
    Prop where
  role : (w.handler root).role = .root ref
  managed : ∃ s, w.hooksAt ref = .managed s ∧ s.config = config
  guards : w.guards = {}

/-- One deed of a party while it is called: an errand, with parties `inner` behind the hooks, or
anything that has nothing to do with the hooks. -/
inductive Involvement [DecidableEq ρ] (root : HandlerRef) (ref : HooksRef)
    (inner : Observers ρ (σ × Guards) α → Prop) : GuardedWorld ρ σ → GuardedWorld ρ σ → Prop
  | errand (obs : Observers ρ (σ × Guards) α) (hobs : inner obs) (x : Errand ρ α)
      (w : GuardedWorld ρ σ) : Involvement root ref inner w (w.attend obs root ref x).2
  | elsewhere (w w' : GuardedWorld ρ σ)
      (hrole : (w'.handler root).role = (w.handler root).role)
      (hhooks : w'.hooksAt ref = w.hooksAt ref) (hguards : w'.guards = w.guards) :
      Involvement root ref inner w w'

end World

namespace Observers

/-- Traces leave the guards alone, and what a party does when it is called is a sequence of
deeds. -/
structure Involved (deed : GuardedWorld ρ σ → GuardedWorld ρ σ → Prop)
    (obs : Observers ρ (σ × Guards) α) : Prop where
  trace : ∀ t x, (obs.trace t x).2 = x.2
  decide : ∀ party e w, Relation.ReflTransGen deed w (obs.decide party e w).2
  notify : ∀ party e w, Relation.ReflTransGen deed w (obs.notify party e w)

/-- Parties that do errands from inside their own calls, nested up to `depth` deep. -/
def Attends [DecidableEq ρ] (root : HandlerRef) (ref : HooksRef) :
    Nat → Observers ρ (σ × Guards) α → Prop
  | 0 => Involved (World.Involvement root ref fun _ : Observers ρ (σ × Guards) α => False)
  | depth + 1 => Involved (World.Involvement root ref (Attends root ref depth))

end Observers

/-! ### Attendance -/

/-- A call of one listener, with the worlds in which it began and ended.  A listener that is told
gives no answer. -/
structure Summons (ρ σ α : Type) where
  listener : ρ
  event : Event α
  before : GuardedWorld ρ σ
  answer : Option Bool
  after : GuardedWorld ρ σ

namespace Summons

def Genuine (obs : Observers ρ (σ × Guards) α) (c : Summons ρ σ α) : Prop :=
  match c.answer with
  | some b => obs.decide c.listener c.event c.before = (b, c.after)
  | none => obs.notify c.listener c.event c.before = c.after

/-- The calls lead from one world to the other, each beginning where the one before it ended. -/
def Lead : GuardedWorld ρ σ → List (Summons ρ σ α) → GuardedWorld ρ σ → Prop
  | w, [], w' => w = w'
  | w, c :: rest, w' => c.before = w ∧ Lead c.after rest w'

end Summons

/-- A guarded world with a list of the calls made in it, oldest first. -/
abbrev AttendedWorld (ρ σ α : Type) := GuardedWorld ρ (σ × List (Summons ρ σ α))

namespace World

def summonses (w : AttendedWorld ρ σ α) : List (Summons ρ σ α) := w.outside.1.2

def unattended (w : AttendedWorld ρ σ α) : GuardedWorld ρ σ :=
  { w with outside := (w.outside.1.1, w.outside.2) }

def attended (w : GuardedWorld ρ σ) (calls : List (Summons ρ σ α)) : AttendedWorld ρ σ α :=
  { w with outside := ((w.outside.1, calls), w.outside.2) }

end World

/-- The same parties, and a list of their calls, of which they know nothing. -/
def Observers.attended (obs : Observers ρ (σ × Guards) α) :
    Observers ρ ((σ × List (Summons ρ σ α)) × Guards) α where
  decide party e w :=
    let (b, w') := obs.decide party e w.unattended
    (b, w'.attended (w.summonses ++ [⟨party, e, w.unattended, some b, w'⟩]))
  notify party e w :=
    let w' := obs.notify party e w.unattended
    w'.attended (w.summonses ++ [⟨party, e, w.unattended, none, w'⟩])
  trace t x :=
    let (y, g) := obs.trace t (x.1.1, x.2)
    ((y, x.1.2), g)
  note c x :=
    let (y, g) := obs.note c (x.1.1, x.2)
    ((y, x.1.2), g)

/-- An errand that was done, with the calls of listeners it led to. -/
structure Attendance (ρ σ α : Type) where
  errand : Errand ρ α
  before : GuardedWorld ρ σ
  receipt : Except Error (Receipt ρ)
  calls : List (Summons ρ σ α)
  after : GuardedWorld ρ σ

namespace Attendance

def Lead : GuardedWorld ρ σ → List (Attendance ρ σ α) → Prop
  | _, [] => True
  | w, t :: rest => t.before = w ∧ Lead t.after rest

end Attendance

def Observers.errands [DecidableEq ρ] (obs : Observers ρ (σ × Guards) α) (root : HandlerRef)
    (ref : HooksRef) : List (Errand ρ α) → GuardedWorld ρ σ → List (Attendance ρ σ α)
  | [], _ => []
  | x :: rest, w =>
    let (r, w') := (w.attended []).attend obs.attended root ref x
    ⟨x, w, r, w'.summonses, w'.unattended⟩ :: obs.errands root ref rest w'.unattended

/-! ### What a snapshot says of a dispatch -/

/-- A dispatch of `e` to the pre-listeners `parties` made these calls, and this is its answer: it
called each of them in turn; with `shortCircuit` up to the first that said no. -/
structure Summons.Decided (shortCircuit : Bool) (e : Event α) (parties : List ρ)
    (calls : List (Summons ρ σ α)) (accepted : Bool) : Prop where
  asked : ∀ c ∈ calls, c.event = e ∧ c.answer.isSome
  /-- In the order of the parties, once each. -/
  order : calls.map (·.listener) <+: parties
  /-- Nobody is left out, unless the last call ended the consultation. -/
  complete : shortCircuit = false ∨ (∀ c ∈ calls, c.answer = some true) →
    calls.map (·.listener) = parties
  /-- Whoever said no to a consultation that ends with it was the last. -/
  first : shortCircuit → ∀ c ∈ calls.dropLast, c.answer = some true
  answer : accepted = true ↔ ∀ c ∈ calls, c.answer ≠ some false

/-- A dispatch of `e` to the post-listeners `parties` told each of them in turn. -/
structure Summons.Notified (e : Event α) (parties : List ρ) (calls : List (Summons ρ σ α)) :
    Prop where
  told : ∀ c ∈ calls, c.event = e ∧ c.answer = none
  order : calls.map (·.listener) = parties

/-- What an errand comes to at hooks that were `s` when it began. -/
def Attendance.Follows [DecidableEq ρ] (ref : HooksRef) (s : ManagedHooks ρ)
    (t : Attendance ρ σ α) : Prop :=
  match t.errand with
  | .add p l mask => t.receipt = .ok .done ∧ t.calls = [] ∧
      t.after.hooksAt ref = .managed (s.withRegistered p (s.registered p ++ [⟨l, mask⟩]))
  | .subscribe p l => t.receipt = .ok .done ∧ t.calls = [] ∧
      t.after.hooksAt ref =
        .managed (s.withRegistered p (s.registered p ++ [⟨l, s.config.defaultMask⟩]))
  | .remove p l =>
      t.receipt = .ok (.removed ((s.registered p).any fun r => r.listener = l)) ∧ t.calls = [] ∧
      t.after.hooksAt ref =
        .managed (s.withRegistered p (Registration.without l (s.registered p)))
  | .list p => t.receipt = .ok (.listed ((s.registered p).map (·.listener))) ∧ t.calls = [] ∧
      t.after.hooksAt ref = .managed s
  | .decide e => ∃ accepted, t.receipt = .ok (.decided accepted) ∧
      Summons.Lead t.before t.calls t.after ∧
      Summons.Decided s.config.shortCircuit e (Registration.hearing e.kind s.pre) t.calls accepted
  | .notify e => t.receipt = .ok .done ∧ Summons.Lead t.before t.calls t.after ∧
      Summons.Notified e (Registration.hearing e.kind s.post) t.calls

end WatchedContainers
