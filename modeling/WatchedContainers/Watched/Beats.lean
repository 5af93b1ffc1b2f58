import WatchedContainers.Handler.Revision
import WatchedContainers.Watched.Session

/-!
# Runs under a panel

What happens to a watched container and its handlers from outside: actions on what is open on it,
and requests to the handlers.  Actions that are not offered are passed over; everything else is a
beat.
-/

namespace WatchedContainers

variable {ρ C κ α : Type}

inductive Happening (ρ α : Type) where
  | action (a : Action α)
  | request (x : Request ρ α)

/-- Something that happened, with the session and the world before and after it. -/
structure Beat (ρ C κ α : Type) where
  happening : Happening ρ α
  before : Session C κ α
  worldBefore : MinutedWorld ρ α
  result : Except Error (Response α ⊕ Grant ρ)
  after : Session C κ α
  worldAfter : MinutedWorld ρ α

def Happening.involves [DecidableEq ρ] (hidden : Option ρ) : Happening ρ α → Bool
  | action _ => false
  | request x => x.involves hidden

def Beat.revised [DecidableEq ρ] (v : Revision ρ (List (Minute ρ α))) (b : Beat ρ C κ α) :
    Beat ρ C κ α :=
  { b with worldBefore := b.worldBefore.revised v, worldAfter := b.worldAfter.revised v }

namespace Panel

variable [DecidableEq ρ] [ObjectIdentity α] [Collection C α] [Traversal C κ α] [BEq α] [Noting C]

def take (panel : Panel ρ α) (fam : Family C κ α) (depth : Nat) (x : Happening ρ α)
    (s : Session C κ α) (w : MinutedWorld ρ α) :
    Option (Except Error (Response α ⊕ Grant ρ) × Session C κ α × MinutedWorld ρ α) :=
  match x with
  | .action a =>
    (s.act (panel.observers depth) fam a w).map fun (r, s', w') => (r.map .inl, s', w')
  | .request x =>
    let (r, w') := w.grant (panel.observers depth) x
    some (r.map .inr, s, w')

def beats (panel : Panel ρ α) (fam : Family C κ α) (depth : Nat) :
    List (Happening ρ α) → Session C κ α → MinutedWorld ρ α → List (Beat ρ C κ α)
  | [], _, _ => []
  | x :: rest, s, w =>
    match panel.take fam depth x s w with
    | none => panel.beats fam depth rest s w
    | some (r, s', w') => ⟨x, s, w, r, s', w'⟩ :: panel.beats fam depth rest s' w'

end Panel

end WatchedContainers
