import WatchedContainers.Handler.Judge
import WatchedContainers.Watched.Session

/-!
# Runs

A run plays a list of actions on a session, under a judge at the root.  Actions that are not
offered by what is in front are passed over; every other action is a turn.
-/

namespace WatchedContainers

variable {C κ α : Type}

/-- An action that was performed, with the session and the world before and after it. -/
structure Turn (C κ α : Type) where
  action : Action α
  before : Session C κ α
  worldBefore : HeardWorld α
  response : Except Error (Response α)
  after : Session C κ α
  worldAfter : HeardWorld α

namespace Turn

def history (t : Turn C κ α) : List (Heard α) := t.worldBefore.outside

def heard (t : Turn C κ α) : List (Heard α) := t.worldAfter.outside.drop t.history.length

end Turn

/-- The turns of a run, and where it ends. -/
structure Course (C κ α : Type) where
  turns : List (Turn C κ α)
  session : Session C κ α
  world : HeardWorld α

namespace Course

def after (c : Course C κ α) (t : Turn C κ α) : Course C κ α := { c with turns := t :: c.turns }

def responses (c : Course C κ α) : List (Except Error (Response α)) := c.turns.map (·.response)

def heard (c : Course C κ α) : List (Heard α) := c.turns.flatMap (·.heard)

def answers (c : Course C κ α) : List Bool := c.heard.filterMap Heard.answer?

/-- No question is answered differently in the two runs: the first questions get the same answer,
the second ones do, and so on as long as both are asked. -/
def Concur (c c₀ : Course C κ α) : Prop := ∀ p ∈ c.answers.zip c₀.answers, p.1 = p.2

instance (c c₀ : Course C κ α) : Decidable (c.Concur c₀) :=
  inferInstanceAs (Decidable (∀ p ∈ c.answers.zip c₀.answers, p.1 = p.2))

def reports (c : Course C κ α) : List (Event α) := c.heard.filterMap Heard.told?

end Course

def Standard.run [ObjectIdentity α] (k : Standard α C κ) (j : Judge α) :
    List (Action α) → Session C κ α → HeardWorld α → Course C κ α
  | [], s, w => ⟨[], s, w⟩
  | a :: rest, s, w =>
    match k.act j.observers a s w with
    | none => k.run j rest s w
    | some (r, s', w') => (k.run j rest s' w').after ⟨a, s, w, r, s', w'⟩

/-! ### Containers to run on -/

namespace Watched

def session (c : Watched C) : Session C κ α := { root := c }

/-- A container watched by the first root of a world, under the first identity. -/
def alone (inner : C) : Watched C := { inner, handler := ⟨0⟩, id := ⟨1⟩ }

end Watched

/-- A world with one root, which calls a judge and is bound to a container. -/
def Standard.world (k : Standard α C κ) : HeardWorld α :=
  { nextId := 2
    handlers := #[{ role := .root ⟨0⟩, binding := some ⟨⟨1⟩, k.capabilities⟩ }]
    hooks := #[.policy ()]
    outside := [] }

end WatchedContainers
