import WatchedContainers.Watched.Segment
import WatchedContainers.Watched.SubRange

/-!
# Filters of a view

The walks that filter a view, for a test that may do something of its own whenever it is asked.
What it does is an action of a monad, so the order of the questions and their number can be told.  A
test that only answers gives the filters themselves (`Segment.retainM_pure`,
`SubRange.retainM_pure`).

Two filters by the same test may share out the elements between them (`Operation.Splits`).
-/

namespace WatchedContainers

/-! ### Parts of a view -/

/-- Two operations on a view split its elements.  One leaves those that pass the test and the other
one leaves those that fail it, in their order; each tells whether there was anything to take out. -/
def Operation.Splits {S α : Type} (values : S → List α) (test : α → Bool)
    (retain remove : Operation S α Bool) (s : S) : Prop :=
  ∃ retained removed, retain s = .ok retained ∧ remove s = .ok removed ∧
    (values s).partition test = (values retained.commit.state, values removed.commit.state) ∧
    retained.commit.result = .ok (!(values removed.commit.state).isEmpty) ∧
    removed.commit.result = .ok (!(values retained.commit.state).isEmpty)

/-! ### Walks that ask -/

variable {m : Type → Type} [Monad m] {C κ α : Type}

/-- A test that acts before it answers. -/
def asking (act : α → m Unit) (keep : α → Bool) (v : α) : m Bool := do
  act v
  return keep v

namespace Segment

variable [Positional C α]

/-- Goes down from position `start + count` to `start` and removes the elements that fail the
test. -/
def sweepM (test : α → m Bool) (list : C) (start : Nat) : Nat → m (Bool × C)
  | 0 => return (false, list)
  | count + 1 =>
    match Positional.get? list (start + count) with
    | some v => do
      if ← test v then sweepM test list start count
      else
        let (_, list) ← sweepM test (Positional.removeAt list (start + count)).2 start count
        return (true, list)
    | none => sweepM test list start count

/-- Keeps the elements of the segment that pass the test, and tells whether any was removed. -/
def retainM [Collection C α] (s : Segment C) (test : α → m Bool) : m (Bool × C) :=
  sweepM test s.list s.start s.length

variable [LawfulMonad m] (keep : α → Bool)

theorem sweepM_pure (list : C) (start count : Nat) :
    sweepM (fun v => (pure (keep v) : m Bool)) list start count =
      pure (sweep keep list start count) := by
  induction count generalizing list with
  | zero => rfl
  | succ count ih =>
    rw [sweepM, sweep]
    cases Positional.get? list (start + count) with
    | none => exact ih list
    | some v => by_cases hk : keep v <;> simp [hk, ih]

/-- A test that only answers filters the segment. -/
theorem retainM_pure [Collection C α] (s : Segment C) :
    s.retainM (fun v => (pure (keep v) : m Bool)) = pure (s.retain keep) :=
  sweepM_pure keep s.list s.start s.length

end Segment

namespace SubRange

variable [Collection C α] [Traversal C κ α]

/-- Walks along a cursor for at most `fuel` elements and removes those that fail the test. -/
def sweepM (test : α → m Bool) : Nat → κ → C → m (Bool × C)
  | 0, _, set => return (false, set)
  | fuel + 1, cursor, set =>
    match Traversal.next cursor set with
    | (none, _) => return (false, set)
    | (some v, cursor) => do
      if ← test v then sweepM test fuel cursor set
      else
        match Traversal.remove cursor set with
        | (removed, cursor, set) =>
          let (more, set) ← sweepM test fuel cursor set
          return (removed.isSome || more, set)

def retainM [Sorted C κ α] (r : SubRange C α) (test : α → m Bool) : m (Bool × C) :=
  sweepM test (Collection.size r.set + 1) (Sorted.cursorWithin r.set r.bounds) r.set

variable [LawfulMonad m] (keep : α → Bool)

omit [Collection C α] in
theorem sweepM_pure (fuel : Nat) (cursor : κ) (set : C) :
    sweepM (fun v => (pure (keep v) : m Bool)) fuel cursor set =
      pure (sweep keep fuel cursor set) := by
  induction fuel generalizing cursor set with
  | zero => rfl
  | succ fuel ih =>
    rw [sweepM, sweep]
    cases Traversal.next cursor set with
    | mk produced cursor =>
      cases produced with
      | none => rfl
      | some v => by_cases hk : keep v <;> simp [hk, ih]

theorem retainM_pure [Sorted C κ α] (r : SubRange C α) :
    r.retainM (fun v => (pure (keep v) : m Bool)) = pure (r.retain keep) :=
  sweepM_pure keep _ (Sorted.cursorWithin r.set r.bounds) r.set

end SubRange

end WatchedContainers
