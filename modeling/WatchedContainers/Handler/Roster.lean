import WatchedContainers.Handler.Listeners

/-!
# Rosters

Listeners join managed hooks and leave them, through any handler that reaches a root with these
hooks, in any order.  A book keeps what was done, oldest first; nothing in it is ever struck out.
It tells which registrations stand, without a list that is changed: those whose listener did not
leave later.
-/

namespace WatchedContainers

variable {ρ σ α : Type}

/-- A listener was registered for a phase, or was removed from it. -/
inductive Entry (ρ : Type) where
  | joined (p : Phase) (r : Registration ρ)
  | left (p : Phase) (l : ρ)
deriving DecidableEq

namespace Entry

def phase : Entry ρ → Phase
  | joined p _ | left p _ => p

/-- The registrations for a phase that stand, in the order in which they were made. -/
def standing [DecidableEq ρ] (p : Phase) : List (Entry ρ) → List (Registration ρ)
  | [] => []
  | joined q r :: later =>
    if q = p ∧ left p r.listener ∉ later then r :: standing p later else standing p later
  | left _ _ :: later => standing p later

end Entry

/-- A book in which the registrations stand that the hooks have. -/
def ManagedHooks.book (s : ManagedHooks ρ) : List (Entry ρ) :=
  s.pre.map (.joined .pre) ++ s.post.map (.joined .post)

namespace World

def hooksRef? (w : World ρ σ) (h : HandlerRef) : Option HooksRef :=
  (w.root? h).bind fun root =>
    match (w.handler root).role with
    | .root ref => some ref
    | _ => none

/-- From `w` to `w'` this was entered in the book of the hooks `ref`, which have the configuration
`config`.  Listeners join and leave through any handler that reaches the hooks, or subscribe to the
hooks themselves; whatever else is done leaves the hooks as they are. -/
inductive Booked [DecidableEq ρ] (α : Type) (ref : HooksRef) (config : Config) :
    List (Entry ρ) → World ρ σ → World ρ σ → Prop
  | refl (w : World ρ σ) : Booked α ref config [] w w
  | register {es : List (Entry ρ)} {w w' : World ρ σ} (hw : Booked α ref config es w w')
      (obs : Observers ρ σ α) (h : HandlerRef) (p : Phase) (l : ρ) (mask : Mask)
      (hreach : w'.hooksRef? h = some ref) :
      Booked α ref config (es ++ [.joined p ⟨l, mask⟩]) w (w'.addListener obs h p l mask).2
  | subscribe {es : List (Entry ρ)} {w w' : World ρ σ} (hw : Booked α ref config es w w')
      (obs : Observers ρ σ α) (p : Phase) (l : ρ) :
      Booked α ref config (es ++ [.joined p ⟨l, config.defaultMask⟩]) w (w'.subscribe obs ref p l)
  | unregister {es : List (Entry ρ)} {w w' : World ρ σ} (hw : Booked α ref config es w w')
      (obs : Observers ρ σ α) (h : HandlerRef) (p : Phase) (l : ρ)
      (hreach : w'.hooksRef? h = some ref) :
      Booked α ref config (es ++ [.left p l]) w (w'.removeListener obs h p l).2
  | list {es : List (Entry ρ)} {w w' : World ρ σ} (hw : Booked α ref config es w w')
      (obs : Observers ρ σ α) (h : HandlerRef) (p : Phase) (hreach : w'.hooksRef? h = some ref) :
      Booked α ref config es w (w'.listeners obs h p).2
  | elsewhere {es : List (Entry ρ)} {w w' w'' : World ρ σ} (hw : Booked α ref config es w w')
      (hhooks : w''.hooksAt ref = w'.hooksAt ref) : Booked α ref config es w w''

/-- The hooks are managed, and the registrations that they have are those that stand in the
book. -/
structure Rosters [DecidableEq ρ] (w : World ρ σ) (ref : HooksRef) (book : List (Entry ρ))
    (s : ManagedHooks ρ) : Prop where
  hooks : w.hooksAt ref = .managed s
  registered : ∀ p, s.registered p = Entry.standing p book

end World

/-- Whatever a party does when it is called can be entered in the book. -/
structure Observers.Books [DecidableEq ρ] (obs : Observers ρ σ α) (ref : HooksRef)
    (config : Config) : Prop where
  decide : ∀ party e w, ∃ es, World.Booked α ref config es w (obs.decide party e w).2
  notify : ∀ party e w, ∃ es, World.Booked α ref config es w (obs.notify party e w)

end WatchedContainers
