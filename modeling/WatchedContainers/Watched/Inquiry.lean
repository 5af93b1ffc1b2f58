import WatchedContainers.Registry

/-!
# Inquiries

A list of the questions that the factories of a registry were asked is kept beside what lies
outside.  The factories know nothing of it: they do what they would do without it, and the question
with its answer is written down.

* `Registry.resolution`: a resolution with the questions that it led to.
* `Inquiry.Sought`: **whom it asks, and which answer counts**.
* `Resolution.Follows`: what comes of it, with a listener value and without one.
-/

namespace WatchedContainers

variable {ρ σ ν α : Type}

/-- A question to one factory of a registry, with the worlds in which it was put and answered.  The
place of a factory says how many were registered before it. -/
structure Inquiry (ρ σ ν : Type) where
  place : Nat
  container : ContainerId
  listener : Listener ρ ν
  config : Config
  before : World ρ σ
  answer : Option HooksRef
  after : World ρ σ

namespace Inquiry

/-- The factory at that place was asked, and this is what it did. -/
def Genuine (factories : List (Factory ρ σ ν)) (q : Inquiry ρ σ ν) : Prop :=
  ∃ f, factories[q.place]? = some f ∧
    f.create q.container q.listener q.config q.before = (q.answer, q.after)

/-- The questions lead from one world to the other, each put where the one before it left off. -/
def Lead : World ρ σ → List (Inquiry ρ σ ν) → World ρ σ → Prop
  | w, [], w' => w = w'
  | w, q :: rest, w' => q.before = w ∧ Lead q.after rest w'

/-- The factories were asked about a listener value, and `answer` is what came of it. -/
structure Sought (factories : List (Factory ρ σ ν)) (container : ContainerId) (l : Listener ρ ν)
    (config : Config) (qs : List (Inquiry ρ σ ν)) (answer : Option HooksRef) : Prop where
  asked : ∀ q ∈ qs, q.Genuine factories ∧
    q.container = container ∧ q.listener = l ∧ q.config = config
  /-- Against the order of registration, once each. -/
  order : qs.map (·.place) <+: (List.range factories.length).reverse
  /-- Nobody is asked after the first answer. -/
  first : ∀ q ∈ qs.dropLast, q.answer = none
  last : answer = qs.getLast?.bind (·.answer)
  /-- There is no answer if and only if everybody was asked and declined. -/
  declined : answer = none ↔
    qs.map (·.place) = (List.range factories.length).reverse ∧ ∀ q ∈ qs, q.answer = none

end Inquiry

/-! ### A list of the questions -/

/-- A world with a list of the questions put in it, oldest first. -/
abbrev InquiredWorld (ρ σ ν : Type) := World ρ (σ × List (Inquiry ρ σ ν))

namespace World

def inquiries (w : InquiredWorld ρ σ ν) : List (Inquiry ρ σ ν) := w.outside.2

def uninquired (w : InquiredWorld ρ σ ν) : World ρ σ := { w with outside := w.outside.1 }

def inquired (w : World ρ σ) (qs : List (Inquiry ρ σ ν)) : InquiredWorld ρ σ ν :=
  { w with outside := (w.outside, qs) }

end World

def Factory.inquired (place : Nat) (f : Factory ρ σ ν) :
    Factory ρ (σ × List (Inquiry ρ σ ν)) ν where
  create container l config w :=
    let (answer, w') := f.create container l config w.uninquired
    (answer,
      w'.inquired (w.inquiries ++ [⟨place, container, l, config, w.uninquired, answer, w'⟩]))

def Registry.inquired (r : Registry ρ σ ν) : Registry ρ (σ × List (Inquiry ρ σ ν)) ν :=
  ⟨r.factories.mapIdx Factory.inquired⟩

/-- The same parties, who are asked nothing by a registry. -/
def Observers.inquired (obs : Observers ρ σ α) : Observers ρ (σ × List (Inquiry ρ σ ν)) α where
  decide party e w :=
    let (b, w') := obs.decide party e w.uninquired
    (b, w'.inquired w.inquiries)
  notify party e w := (obs.notify party e w.uninquired).inquired w.inquiries
  trace t x := (obs.trace t x.1, x.2)
  note c x := (obs.note c x.1, x.2)

/-! ### Resolutions -/

/-- A resolution of a listener value, and the questions it led to. -/
structure Resolution (ρ σ ν : Type) where
  inquiries : List (Inquiry ρ σ ν)
  result : Except Error HandlerRef
  after : World ρ σ

def Registry.resolution (obs : Observers ρ σ α) (r : Registry ρ σ ν) (container : ContainerId)
    (listener : Option (Listener ρ ν)) (config : Config) (w : World ρ σ) : Resolution ρ σ ν :=
  let (result, w') := r.inquired.resolve obs.inquired container listener config (w.inquired [])
  ⟨w'.inquiries, result, w'.uninquired⟩

/-- The world with an unbound root handler over the hooks `ref`, the last of the handlers. -/
def World.withUnbound (ref : HooksRef) (config : Config) (w : World ρ σ) : World ρ σ :=
  { w with handlers := w.handlers.push { role := .root ref, binding := none, depth := 0, config } }

/-- What a resolution comes to.  With a listener value it is decided by the answer to the questions,
and without one nobody is asked and the root has new hooks that carry no listeners. -/
def Resolution.Follows (obs : Observers ρ σ α) (r : Registry ρ σ ν) (container : ContainerId)
    (listener : Option (Listener ρ ν)) (config : Config) (w : World ρ σ)
    (t : Resolution ρ σ ν) : Prop :=
  match listener with
  | none => t.inquiries = [] ∧ t.result = .ok ⟨w.handlers.size⟩ ∧
      t.after = World.withUnbound ⟨w.hooks.size⟩ config
        { w with hooks := w.hooks.push (.managed { pre := [], post := [], config }) }
  | some l => ∃ answer left, Inquiry.Lead w t.inquiries left ∧
      Inquiry.Sought r.factories container l config t.inquiries answer ∧
      match answer with
      | some ref => t.result = .ok ⟨left.handlers.size⟩ ∧ t.after = left.withUnbound ref config
      | none => t.result = .error (.unrecognizedListener l.typeName) ∧
          t.after = left.emit obs (.listenerUnknown container l.typeName)

end WatchedContainers
