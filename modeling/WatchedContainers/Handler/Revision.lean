import WatchedContainers.Handler.Panel

/-!
# Revisions of worlds

Two runs are compared by a revision of the worlds of one of them: a listener is struck off all
lists, configurations are changed, or minutes are.  The handlers stay what they are.
-/

namespace WatchedContainers

variable {ρ σ α : Type}

/-- Strikes the listener `hidden` off, if there is one, and changes configurations and what lies
outside.  Configurations keep what handlers and hooks read of them other than the short circuit. -/
structure Revision (ρ σ : Type) where
  hidden : Option ρ := none
  config : Config → Config := id
  outside : σ → σ := id
  maxViewDepth_config : ∀ c, (config c).maxViewDepth = c.maxViewDepth := by intro; rfl
  defaultMask_config : ∀ c, (config c).defaultMask = c.defaultMask := by intro; rfl

variable [DecidableEq ρ]

/-- The request is about the listener `hidden`, or shows whether it is registered. -/
def Request.involves (hidden : Option ρ) (x : Request ρ α) : Bool :=
  hidden.isSome && (x.listener? = hidden || x.lists)

/-- The first conduct does what the second does, and makes requests besides that involve `hidden`
and do not matter to it. -/
inductive Conduct.Exceeds {β : Type} (hidden : Option ρ) :
    Conduct ρ α β → Conduct ρ α β → Prop
  | done (b : β) : Exceeds hidden (.done b) (.done b)
  | call (x : Request ρ α) (next next' : Except Error (Grant ρ) → Conduct ρ α β)
      (hx : x.involves hidden = false) (hnext : ∀ r, Exceeds hidden (next r) (next' r)) :
      Exceeds hidden (.call x next) (.call x next')
  | aside (x : Request ρ α) (next : Except Error (Grant ρ) → Conduct ρ α β)
      (c : Conduct ρ α β) (hx : x.involves hidden = true)
      (hnext : ∀ r, Exceeds hidden (next r) c) : Exceeds hidden (.call x next) c

namespace Registration

def visible (hidden : Option ρ) (rs : List (Registration ρ)) : List (Registration ρ) :=
  rs.filter fun r => some r.listener ≠ hidden

end Registration

def ManagedHooks.revised (v : Revision ρ σ) (s : ManagedHooks ρ) : ManagedHooks ρ where
  pre := Registration.visible v.hidden s.pre
  post := Registration.visible v.hidden s.post
  config := v.config s.config

def Hooks.revised (v : Revision ρ σ) : Hooks ρ → Hooks ρ
  | acceptAll => .acceptAll
  | policy party => if some party = v.hidden then .acceptAll else .policy party
  | managed s => .managed (s.revised v)

omit [DecidableEq ρ] in
def Handler.revised (v : Revision ρ σ) (h : Handler) : Handler :=
  { h with config := v.config h.config }

def Minute.without (l : ρ) (log : List (Minute ρ α)) : List (Minute ρ α) :=
  log.filter fun m => m.listener? ≠ some l

def World.revised (v : Revision ρ σ) (w : World ρ σ) : World ρ σ where
  nextId := w.nextId
  handlers := w.handlers.map (·.revised v)
  hooks := w.hooks.map (·.revised v)
  outside := v.outside w.outside

namespace Revision

/-- Every configuration says whether the first veto ends a consultation, and says the same. -/
def shortCircuiting (b : Bool) : Revision ρ σ where
  config c := { c with shortCircuit := b }

/-- The listener `guest` was never registered, and nothing was heard of it. -/
def erasing (guest : ρ) : Revision ρ (List (Minute ρ α)) where
  hidden := some guest
  outside := Minute.without guest

end Revision

end WatchedContainers
