import WatchedContainers.Handler.Dispatch

/-!
# Plans of operations

Every mutating operation follows one protocol: check the arguments, propose the modification,
change the container unless it was refused, and report what came of it.  What differs between two
operations is data, a `Plan`, and it depends on the state of the container alone.  `perform` runs
a plan.

The state `S` of an operation is a container, a part of one, or an iteration over one.
-/

namespace WatchedContainers

/-- The change a plan makes once it is accepted. -/
structure Commit (S α β : Type) where
  state : S
  /-- What is reported, with the size of the root afterwards.  An operation may find that there is
  nothing to report. -/
  report : Option (Completion α × Nat)
  result : Except Error β

structure Plan (S α β : Type) where
  proposal : Modification α
  /-- The size of the root beforehand. -/
  size : Nat
  /-- The result if the proposal is refused. -/
  refused : β
  commit : Commit S α β

/-- An operation checks its arguments against the state and makes a plan. -/
abbrev Operation (S α β : Type) := S → Except Error (Plan S α β)

namespace Plan

variable {S α β : Type}

def reporting (m : Modification α) (size : Nat) (refused : β) (state : S) (c : Completion α)
    (after : Nat) (result : β) : Plan S α β :=
  { proposal := m, size, refused, commit := ⟨state, some (c, after), .ok result⟩ }

/-- The plan of a change that goes unreported. -/
def unreported (m : Modification α) (size : Nat) (refused : β) (state : S)
    (result : Except Error β) : Plan S α β :=
  { proposal := m, size, refused, commit := ⟨state, none, result⟩ }

/-- The plan seen from a state that has `S` as a part, with its results passed on by `answer`. -/
def lift {T γ : Type} (put : S → T) (answer : β → γ) (p : Plan S α β) : Plan T α γ :=
  { proposal := p.proposal, size := p.size, refused := answer p.refused
    commit := ⟨put p.commit.state, p.commit.report, p.commit.result.map answer⟩ }

end Plan

/-- An operation on a part of a larger state. -/
def Operation.on {S T α β γ : Type} (part : T → S) (put : T → S → T) (answer : β → γ)
    (operation : Operation S α β) : Operation T α γ :=
  fun t => (operation (part t)).map (Plan.lift (put t) answer)

def Operation.answering {S α β γ : Type} (answer : β → γ) (operation : Operation S α β) :
    Operation S α γ :=
  operation.on id (fun _ s => s) answer

theorem Operation.answering_eq {S α β γ : Type} {operation : Operation S α β} {answer : β → γ}
    {s : S} {x : Except Error (Plan S α β)} (h : operation s = x) :
    operation.answering answer s = x.map (Plan.lift (fun s => s) answer) := by
  rw [← h]
  rfl

/-- Runs an operation against the handler `h`. -/
def perform {ρ σ S α β : Type} [ObjectIdentity α] [Noting S] (obs : Observers ρ σ α)
    (h : HandlerRef) (operation : Operation S α β) (s : S) (w : World ρ σ) :
    Except Error β × S × World ρ σ :=
  match operation s with
  | .error e => (.error e, s, w)
  | .ok plan =>
    match w.propose obs h plan.proposal plan.size with
    | (.error e, w) => (.error e, s, w)
    | (.ok false, w) => (.ok plan.refused, s, w)
    | (.ok true, w) =>
      let w := w.collect obs (Noting.calls plan.commit.state)
      let s := Noting.settle plan.commit.state
      match plan.commit.report with
      | none => (plan.commit.result, s, w)
      | some (c, size) =>
        match w.conclude obs h c size with
        | (.error e, w) => (.error e, s, w)
        | (.ok (), w) => (plan.commit.result, s, w)

end WatchedContainers
