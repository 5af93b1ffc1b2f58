import WatchedContainers.Handler.Recording
import WatchedContainers.Watched.Run

/-!
# Recorded runs

A run under any parties, whatever else they do when they are called.  Its turns show the session
as it is, and the worlds by their shadows: the handlers, and what the root's hooks heard.
-/

namespace WatchedContainers

variable {ρ σ C κ α : Type}

def Standard.recordedRun [ObjectIdentity α] (k : Standard α C κ) (obs : Observers ρ σ α) :
    List (Action α) → Session C κ α → RecordedWorld ρ σ α → Course C κ α
  | [], s, w => ⟨[], s, w.shadow⟩
  | a :: rest, s, w =>
    match k.act obs.recording a s w with
    | none => k.recordedRun obs rest s w
    | some (r, s', w') =>
      (k.recordedRun obs rest s' w').after ⟨a, s, w.shadow, r, s', w'.shadow⟩

end WatchedContainers
