import WatchedContainers.Handler.Lasting
import WatchedContainers.Watched.Shelf

/-!
# How deep views nest

Views are opened on views, down to the depth that the configuration of the root allows.  What
forbids a view is a list of obstacles, and the first one that stands is the error.

A view is opened in four steps: what forbids it is looked for, a handler is made, an identity is
taken, and the handler is bound to it.  Other things happen before and after, but not between these.
-/

namespace WatchedContainers

variable {ρ σ ν C κ α : Type}

/-- A condition under which something fails, and the error it fails with. -/
structure Obstacle where
  stands : Bool
  error : Error

/-- The error of the first obstacle that stands. -/
def Obstacle.first? (obstacles : List Obstacle) : Option Error :=
  (obstacles.find? (·.stands)).map (·.error)

/-- What a factory does when it is asked leads to a later world. -/
def Factory.Lawful (f : Factory ρ σ ν) : Prop :=
  ∀ container l config w, World.Later w (f.create container l config w).2

/-! ### Handlers -/

namespace World

/-- The handler is bound and has the configuration `c`, and `n` views lie above it, no more than
there may. -/
structure Level (w : World ρ σ) (h : HandlerRef) (c : Config) (n : Nat) : Prop where
  isBound : (w.handler h).isBound
  config : (w.handler h).config = c
  depth : (w.handler h).depth = n
  le : n ≤ c.maxViewDepth

/-- The handlers of what is open, the one opened last in front, are bound and have the configuration
of the root.  Each lies below the root as deep as there are views from it on down; the root itself
lies `base` deep. -/
def Stacks (w : World ρ σ) (root : HandlerRef) (config : Config) (base : Nat) :
    List (HandlerRef × Bool) → Prop
  | [] => w.Level root config base
  | x :: below =>
    w.Level x.1 config (base + (x :: below).countP (·.2)) ∧ Stacks w root config base below

/-- The container is watched by a handler with the configuration `config` that lies `base` deep.
Mostly that is a root. -/
structure Watches [Collection C α] (w : World ρ σ) (c : Watched C) (config : Config)
    (base : Nat) : Prop where
  level : w.Level c.handler config base
  capabilities : ¬ (Collection.capabilities C).isEmpty

/-- What forbids a keyed view of the handler `h`. -/
def keyedObstacles (h : Handler) : List Obstacle :=
  [⟨decide (h.config.maxViewDepth ≤ h.depth), .viewDepthExceeded h.config.maxViewDepth⟩]

/-- What forbids a range view of the handler `h`, in the order in which it is looked for. -/
def rangeObstacles (h : Handler) (start stop : Nat) : List Obstacle :=
  ⟨decide (start > stop), .invalidArgument (.reversedRange start stop)⟩ :: keyedObstacles h

/-- These obstacles may forbid a view of the handler `x`: the last one is that it lies too deep, and
those before it are other errors. -/
inductive Forbids (x : Handler) : List Obstacle → Prop
  | deep : Forbids x (keyedObstacles x)
  | cons {o : Obstacle} {os : List Obstacle} (ho : ∀ limit, o.error ≠ .viewDepthExceeded limit)
      (hos : Forbids x os) : Forbids x (o :: os)

/-- One handler was made of the handler `parent`, one deeper and with the same configuration. -/
structure Adds (w : World ρ σ) (parent : HandlerRef) (b : Option Binding) (w' : World ρ σ) :
    Prop where
  handlers : ∃ x, w'.handlers = w.handlers.push x ∧ x.binding = b ∧
    x.depth = (w.handler parent).depth + 1 ∧ x.config = (w.handler parent).config
  hooks : w'.hooks = w.hooks

/-- A handler makes views unless an obstacle stands, and then nothing happens. -/
structure MakesViews (w : World ρ σ) (h : HandlerRef) (obs : Observers ρ σ α) : Prop where
  range : ∀ start stop, match Obstacle.first? (rangeObstacles (w.handler h) start stop) with
    | some e => w.makeRangeView obs h start stop = (.error e, w)
    | none => ∃ w', w.makeRangeView obs h start stop = (.ok ⟨w.handlers.size⟩, w') ∧
        w.Adds h none w' ∧ w'.nextId = w.nextId
  keyed : match Obstacle.first? (keyedObstacles (w.handler h)) with
    | some e => w.makeKeyedView obs h = (.error e, w)
    | none => ∃ w', w.makeKeyedView obs h = (.ok ⟨w.handlers.size⟩, w') ∧ w.Adds h none w' ∧
        w'.nextId = w.nextId

/-- From `w` to `w'` a container was watched or a view was opened, under the identity `id`. -/
inductive Makes (obs : Observers ρ σ α) : ContainerId → World ρ σ → World ρ σ → Prop
  | withRoot {C : Type} [Collection C α] (inner : C) (handler : HandlerRef) (c : Watched C)
      (w w' : World ρ σ) (h : Watched.withRoot obs inner handler w = (.ok c, w')) :
      Makes obs c.id w w'
  | withListener {C ν : Type} [Collection C α] (registry : Registry ρ σ ν)
      (hlawful : ∀ f ∈ registry.factories, f.Lawful) (inner : C)
      (listener : Option (Listener ρ ν)) (config : Config) (c : Watched C) (w w' : World ρ σ)
      (h : Watched.withListener obs registry inner listener config w = (.ok c, w')) :
      Makes obs c.id w w'
  | subList {C : Type} [Collection C α] [Positional C α] (parent : HandlerRef) (x : Segment C)
      (start stop : Nat) (v : SubList C) (w w' : World ρ σ)
      (h : SubList.openIn obs parent x start stop w = (.ok v, w')) : Makes obs v.id w w'
  | sortedView {C : Type} [Collection C α] [Ord α] (parent : HandlerRef) (x : SubRange C α)
      (bounds : Bounds α) (v : SortedView C α) (w w' : World ρ σ)
      (h : SortedView.openIn obs parent x bounds w = (.ok v, w')) : Makes obs v.id w w'

/-- Somebody tried to make a view of the handler `h`, and this came of it. -/
inductive Tries (obs : Observers ρ σ α) (w : World ρ σ) (h : HandlerRef) :
    Except Error HandlerRef × World ρ σ → Prop
  | range (start stop : Nat) : Tries obs w h (w.makeRangeView obs h start stop)
  | keyed : Tries obs w h (w.makeKeyedView obs h)

/-- Any number of times somebody tried to make a view of the handler that was made last and is
bound by now.  No try failed for another reason than the depth. -/
inductive Nests (obs : Observers ρ σ α) :
    Nat → HandlerRef → World ρ σ → HandlerRef → World ρ σ → Prop
  | refl (h : HandlerRef) (w : World ρ σ) : Nests obs 0 h w h w
  | elsewhere {n : Nat} {h h' : HandlerRef} {w w' w'' : World ρ σ} (hn : Nests obs n h w h' w')
      (hlater : w'.Later w'') : Nests obs n h w h' w''
  | made {n : Nat} {h h' ref : HandlerRef} {w w' w'' v : World ρ σ} (hn : Nests obs n h w h' w')
      (ht : Tries obs w' h' (.ok ref, w'')) (hlater : w''.Later v)
      (hbound : (v.handler ref).isBound) : Nests obs (n + 1) h w ref v
  | refused {n limit : Nat} {h h' : HandlerRef} {w w' w'' : World ρ σ} (hn : Nests obs n h w h' w')
      (ht : Tries obs w' h' (.error (.viewDepthExceeded limit), w'')) : Nests obs (n + 1) h w h' w''

end World

/-! ### Sessions -/

/-- In the order of a sorted family, `start` comes behind `stop`. -/
def Family.reversed (fam : Family C κ α) (start stop : α) : Bool :=
  match fam with
  | .sorted _ _ => compare start stop == .gt
  | _ => false

/-- Views are opened, other than iterators. -/
def Opening.isView : Opening α → Bool
  | subList _ _ | range _ | subSet _ _ => true
  | _ => false

namespace Session

/-- The handler of everything that is open, and whether it is a view. -/
def stack (s : Session C κ α) : List (HandlerRef × Bool) :=
  s.frames.map fun f => (f.handler, f.id?.isSome)

def level (s : Session C κ α) : Nat := s.stack.countP (·.2)

section Happens

variable [Collection C α] [Traversal C κ α] [BEq α] [Noting C] [ObjectIdentity α]
  (obs : Observers ρ σ α) (fam : Family C κ α)

/-- An action is performed, or something is done elsewhere. -/
inductive Happens : Session C κ α × World ρ σ → Session C κ α × World ρ σ → Prop
  | act (a : Action α) (r : Except Error (Response α)) (s s' : Session C κ α) (w w' : World ρ σ)
      (h : s.act obs fam a w = some (r, s', w')) : Happens (s, w) (s', w')
  | elsewhere (s : Session C κ α) (w w' : World ρ σ) (hlater : w.Later w') :
      Happens (s, w) (s, w')

/-- Whatever is done with a watched container and its views. -/
def Reaches : Session C κ α × World ρ σ → Session C κ α × World ρ σ → Prop :=
  Relation.ReflTransGen (Happens obs fam)

/-- Any number of times somebody tried to open a view of the view that was opened last, which is
also used in between.  No try failed for another reason than the depth. -/
inductive Descends : Nat → Session C κ α × World ρ σ → Session C κ α × World ρ σ → Prop
  | refl (x : Session C κ α × World ρ σ) : Descends 0 x x
  | elsewhere {n : Nat} {x : Session C κ α × World ρ σ} {s : Session C κ α} {w w' : World ρ σ}
      (hd : Descends n x (s, w)) (hlater : w.Later w') : Descends n x (s, w')
  | used {n : Nat} {x : Session C κ α × World ρ σ} {s s' : Session C κ α} {w w' : World ρ σ}
      (hd : Descends n x (s, w)) {a : Action α} (hopen : ∀ o, a ≠ .openFrame o)
      (hclose : a ≠ .close) {r : Except Error (Response α)} (h : s.act obs fam a w = some (r, s', w')) :
      Descends n x (s', w')
  | tried {n : Nat} {x : Session C κ α × World ρ σ} {s s' : Session C κ α} {w w' : World ρ σ}
      (hd : Descends n x (s, w)) {o : Opening α} (hview : o.isView)
      {r : Except Error (Response α)} (h : s.act obs fam (.openFrame o) w = some (r, s', w'))
      (hr : ∀ e, r = .error e → ∃ limit, e = .viewDepthExceeded limit) : Descends (n + 1) x (s', w')

end Happens

/-- What forbids a view on what is in front, in the order in which it is looked for. -/
def obstacles [Collection C α] (fam : Family C κ α) (s : Session C κ α) (parent : Handler) :
    Opening α → List Obstacle
  | .subList start stop =>
    let length := (s.segment?.map Segment.length).getD 0
    ⟨decide (stop > length), .indexOutOfBounds stop length⟩ ::
      World.rangeObstacles parent start stop
  | .range _ => World.keyedObstacles parent
  | .subSet start stop =>
    ⟨fam.reversed start stop, .invalidArgument .reversedSubSet⟩ :: World.keyedObstacles parent
  | _ => []

/-- The view `f` was opened on what is in front: one handler was made for it and bound to the next
identity. -/
structure OpensView [Collection C α] (obs : Observers ρ σ α) (s : Session C κ α) (w : World ρ σ)
    (f : Frame κ α) (w' : World ρ σ) : Prop where
  handler : f.handler = ⟨w.handlers.size⟩
  id : f.id? = some ⟨w.nextId⟩
  adds : w.Adds s.handler (some ⟨⟨w.nextId⟩, Collection.capabilities C⟩) w'
  nextId : w'.nextId = w.nextId + 1
  makes : World.Makes obs ⟨w.nextId⟩ w w'

end Session

end WatchedContainers
