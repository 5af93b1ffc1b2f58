import WatchedContainers.Handler.Panel

/-!
# Consultations

What the minutes say of one event: who was asked and said what, in the order of the calls.
-/

namespace WatchedContainers

variable {ρ α : Type}

/-- An event raised before a modification, with the calls of the listeners and their answers. -/
structure Consultation (ρ α : Type) where
  event : Event α
  calls : List (ρ × Bool)

/-- The calls up to and with the first veto; all of them if there is none. -/
def throughVeto : List (ρ × Bool) → List (ρ × Bool)
  | [] => []
  | (l, b) :: rest => (l, b) :: if b then throughVeto rest else []

/-- The same consultation, ended by the first veto. -/
def Consultation.curtailed (c : Consultation ρ α) : Consultation ρ α :=
  { c with calls := throughVeto c.calls }

namespace Minute

/-- The minute tells of a listener that is asked, or of its answer. -/
def isAsking : Minute ρ α → Bool
  | asked _ _ | answered _ _ _ => true
  | _ => false

section IsAsking

variable (l : ρ) (e : Event α) (b : Bool)

@[simp] theorem isAsking_raised : (raised e : Minute ρ α).isAsking = false := rfl
@[simp] theorem isAsking_asked : (asked l e).isAsking = true := rfl
@[simp] theorem isAsking_answered : (answered l e b).isAsking = true := rfl
@[simp] theorem isAsking_told : (told l e).isAsking = false := rfl

end IsAsking

def told? : Minute ρ α → Option (ρ × Event α)
  | told l e => some (l, e)
  | _ => none

def raised? : Minute ρ α → Option (Event α)
  | raised e => some e
  | _ => none

def calls : List (Minute ρ α) → List (ρ × Bool)
  | asked _ _ :: rest => calls rest
  | answered l _ b :: rest => (l, b) :: calls rest
  | _ => []

/-- What was asked, if nobody who was asked raised an event before it answered. -/
def consultations : List (Minute ρ α) → List (Consultation ρ α)
  | [] => []
  | raised e :: rest =>
    if e.isPre then ⟨e, calls rest⟩ :: consultations rest else consultations rest
  | _ :: rest => consultations rest

/-- The minutes of the calls that ask about an event. -/
def ofCalls (e : Event α) (calls : List (ρ × Bool)) : List (Minute ρ α) :=
  calls.flatMap fun call => [asked call.1 e, answered call.1 e call.2]

/-- The minutes of the calls that tell of an event. -/
def ofMessages (e : Event α) (ls : List ρ) : List (Minute ρ α) := ls.map (told · e)

end Minute

def World.minutes (ms : List (Minute ρ α)) (w : MinutedWorld ρ α) : MinutedWorld ρ α :=
  { w with outside := w.outside ++ ms }

end WatchedContainers
