import WatchedContainers.Watched.Locality
import WatchedContainers.Watched.SubRange

/-!
# Restrictions of a sorted set

What is done to a view of a sorted set can be done to a sorted set that holds the elements within
the view's bounds only.  The view turns down what would add a value out of bounds; the restricted
set is not asked for it.
-/

namespace WatchedContainers

variable {C κ α : Type}

/-! ### Scripts -/

/-- Whether all values that a command adds are within the bounds. -/
def Command.isWithin [Ord α] (b : Bounds α) : Command α → Bool
  | .add v => b.contains v
  | .addAll vs => vs.all b.contains
  | _ => true

def Action.isWithin [Ord α] (b : Bounds α) : Action α → Bool
  | .command c => c.isWithin b
  | _ => true

/-- Whether a sorted set and its views serve a command, or an iteration over one of them does. -/
def Command.isServed : Bool → Command α → Bool
  | false, .add _ | false, .addAll _ | false, .remove _ | false, .removeAll _
  | false, .retainAll _ | false, .clear | true, .removeLast => true
  | _, _ => false

/-- Whether a sorted set and its views answer a query alike, or an iteration over one of them does.
There are others that only views answer. -/
def Query.isServed : Bool → Query α → Bool
  | false, .size | false, .isEmpty | false, .contains _ | false, .first | false, .last
  | true, .index => true
  | _, _ => false

/-- Scripts for sorted sets and their views: commands and queries that both serve, and iterations
that are opened, used and closed again.  The flag tells whether an iteration is open. -/
def isRangeScript : Bool → List (Action α) → Bool
  | _, [] => true
  | iterating, .command c :: rest => c.isServed iterating && isRangeScript iterating rest
  | iterating, .query q :: rest => q.isServed iterating && isRangeScript iterating rest
  | true, .move .next :: rest | false, .openFrame .iteration :: rest => isRangeScript true rest
  | true, .close :: rest => isRangeScript false rest
  | _, _ => false

/-! ### What is owed to the bounds -/

/-- A turn at a view with the bounds `b` leaves alone what is out of bounds. -/
structure Turn.Respects [Ord α] (b : Bounds α)
    (t : Turn (SortedSet α) (ResumingCursor α) α) : Prop where
  /-- No element out of bounds is added, removed or replaced. -/
  outside : (t.after.container.items.filter fun x => !b.contains x) =
    t.before.container.items.filter fun x => !b.contains x
  keyOutOfRange : t.response = .error .keyOutOfRange ↔ t.action.isWithin b = false
  /-- What would add a value out of bounds is turned down before anyone is asked. -/
  turnedDown : t.action.isWithin b = false → t.heard = [] ∧ t.after = t.before
  /-- A value out of bounds is asked about, and not found. -/
  absent : ∀ v, t.action = .command (.remove v) → b.contains v = false →
    t.response = .ok (.flag false) ∧ t.after = t.before ∧
      ∃ e answer, t.heard = [.asked e answer] ∧ e.modification = .remove v

/-! ### Walks to the end -/

/-- A walk along a cursor that takes out the elements that fail the test, and comes to its end.  It
leads from one container to another and tells whether an element was taken out. -/
inductive SubRange.Sweeps [Traversal C κ α] (keep : α → Bool) : κ → C → Bool → C → Prop
  | done {cursor cursor' : κ} {c : C} (hnext : Traversal.next cursor c = (none, cursor')) :
      Sweeps keep cursor c false c
  | kept {cursor cursor' : κ} {c c' : C} {v : α} {modified : Bool}
      (hnext : Traversal.next cursor c = (some v, cursor')) (hkeep : keep v)
      (hrest : Sweeps keep cursor' c modified c') : Sweeps keep cursor c modified c'
  | removed {cursor cursor₁ cursor₂ : κ} {c c₁ c' : C} {v : α} {removed : Option α}
      {modified : Bool} (hnext : Traversal.next cursor c = (some v, cursor₁)) (hkeep : ¬ keep v)
      (hremove : Traversal.remove cursor₁ c = (removed, cursor₂, c₁))
      (hrest : Sweeps keep cursor₂ c₁ modified c') :
      Sweeps keep cursor c (removed.isSome || modified) c'

end WatchedContainers
