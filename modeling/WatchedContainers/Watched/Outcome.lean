import WatchedContainers.Watched.Run

/-!
# Outcomes

Whether a modification changed the container is told twice, in the event raised after it and in what
the caller gets.  Both can be held against the elements before and after the turn
(`Turn.Genuine`).

Two groups of kinds stand apart.  A replacement is a change unless an instance replaced itself, and
it always gives the old element back; changes of the number of copies are reported as changes,
whatever the bag answers to the caller.
-/

namespace WatchedContainers

variable {C κ α : Type}

/-- What the caller gets says that something was done: a flag that is set, or an element. -/
def Response.affirms : Response α → Bool
  | .flag b => b
  | .element v => v.isSome
  | _ => false

namespace Standard

/-- The elements of a container, in the order in which a walk produces them. -/
def contents : Standard α C κ → C → List α
  | sequence => fun s => s.items
  | queue => fun q => q.items
  | uniqueSet => fun s => s.items
  | sortedSet => fun s => s.items
  | bag => fun b => b.toList

/-- What a bag itself answers to a change of the number of copies. -/
def copiesAnswer? : Standard α C κ → Command α → C → Option Bool
  | bag, .addCopies v n => fun b => some (b.addCopies v n).1
  | bag, .removeCopies v n => fun b => some (b.removeCopies v n).1
  | _, _ => fun _ => none

end Standard

namespace Turn

variable (k : Standard α C κ) (t : Turn C κ α) (e : Event α)

/-- The event says that something changed if and only if the elements are not what they were, if and
only if their number is not what it was, and the caller is told the same. -/
def Effective : Prop :=
  ∃ modified r, e.modified? = some modified ∧ t.response = .ok r ∧ r.affirms = modified ∧
    (modified = true ↔ k.contents t.after.container ≠ k.contents t.before.container) ∧
    (modified = true ↔ k.size t.after.container ≠ k.size t.before.container)

/-- One element was replaced, and the event says that nothing changed if and only if both are one
instance. -/
def Replacing [ObjectIdentity α] : Prop :=
  ∃ i previous stored, e.index? = some i ∧ e.previous? = some previous ∧
    e.subject? = some stored ∧ (k.contents t.before.container)[i]? = some previous ∧
    k.contents t.after.container = (k.contents t.before.container).set i stored ∧
    (k.contents t.after.container)[i]? = some stored ∧
    (e.modified? = some false ↔ sameObject stored previous) ∧
    k.size t.after.container = k.size t.before.container

/-- The event says that something changed, and the caller gets the bag's own answer. -/
def Copying : Prop :=
  e.modified? = some true ∧ ∃ command answer, t.action = .command command ∧
    k.copiesAnswer? command t.before.container = some answer ∧ t.response = .ok (.flag answer)

/-- The event `e`, raised after a modification, tells the truth about the turn. -/
def Genuine [ObjectIdentity α] : Prop :=
  e.postSize? = some (k.size t.after.container) ∧
    match e.kind with
    | .setIndexed | .setIterated => t.Replacing k e
    | .addCopies | .removeCopies => t.Copying k e
    | _ => t.Effective k e

end Turn

end WatchedContainers
