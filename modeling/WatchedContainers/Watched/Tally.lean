import WatchedContainers.Container.Tally
import WatchedContainers.Watched.RecordedRun
import WatchedContainers.Watched.Strictness

/-!
# What bags count

* `Tally.Proper`: the counts of a tally are what its answers say they are, and none is 0.
* `Turn.Counts`: what a turn does to the counts of a bag, and what it says of that.
-/

namespace WatchedContainers

variable {ρ σ C D κ α : Type}

/-! ### Another container in the same place -/

def Watched.map (f : C → D) (c : Watched C) : Watched D := ⟨f c.inner, c.handler, c.id⟩

def Session.map (f : C → D) (s : Session C κ α) : Session D κ α := ⟨s.root.map f, s.frames⟩

def Play.map (f : C → D) (p : Play ρ σ C κ α) : Play ρ σ D κ α :=
  ⟨p.responses, p.session.map f, p.world⟩

/-! ### Counts -/

/-- The tally is not broken, and no element is listed for nothing.  So an element is contained if it
is counted, the size is the sum of the counts, and the number of elements that are listed tells
whether anything was removed. -/
structure Tally.Proper [Ord α] (t : Tally α) : Prop where
  unbroken : t.counts?.isSome
  positive : ∀ p ∈ t.counts, 0 < p.2
  listed : ∀ v, 0 < Counted.count t v ↔ ∃ u ∈ t.elements, compare v u = .eq
  ascending : t.elements.Pairwise Precedes
  contains : ∀ v, Collection.contains t v = true ↔ 0 < Counted.count t v
  size : Collection.size t = t.elements.foldr (fun v n => Counted.count t v + n) 0
  retain : ∀ keep : α → Bool, (Collection.retain t keep).1 = true ↔
    ∃ v, Counted.count (Collection.retain t keep).2 v < Counted.count t v

/-- The bag `b'` counts `n` occurrences of `v`, and as many of every other element as `b`. -/
def CountedBag.Recounts [Ord α] (b : CountedBag α) (v : α) (n : Nat) (b' : CountedBag α) : Prop :=
  ∀ u, b'.count u = if compare v u = .eq then n else b.count u

namespace Turn

variable [Ord α] (t : Turn (CountedBag α) (CopyCursor α) α)

/-- The turn was vetoed, and nothing changed. -/
def Vetoed : Prop :=
  (∃ e, t.heard = [.asked e false]) ∧ t.response = .ok (.flag false) ∧ t.after = t.before

/-- The turn was accepted.  The events carry the sizes before and after it, and the caller gets
`answer`. -/
def Accepted (answer : Bool) : Prop :=
  (∃ e e', t.heard = [.asked e true, .told e'] ∧ e.preSize = t.before.container.size ∧
    e'.preSize = t.before.container.size ∧ e'.postSize? = some t.after.container.size) ∧
  t.response = .ok (.flag answer)

/-- What the turn does to the counts.  Copies are added or taken away, as many as there are, from
the count of one element, and the size changes by as much; and what is said of a removal is whether
anything was removed. -/
def Counts : Prop :=
  let b := t.before.container
  let b' := t.after.container
  match t.action with
  | .command (.addCopies v n) => t.Vetoed ∨
      t.Accepted b.reportsAdded ∧ b.Recounts v (b.count v + n) b' ∧ b'.size = b.size + n
  | .command (.removeCopies v n) =>
      let removed := min n (b.count v)
      t.Vetoed ∨ t.Accepted (0 < removed) ∧ b.Recounts v (b.count v - removed) b' ∧
        b.size = b'.size + removed
  | .command (.removeAll _) | .command (.retainAll _) => t.Vetoed ∨
      ∃ changed, t.Accepted changed ∧ (changed = true ↔ ∃ v, b'.count v < b.count v) ∧
        ∀ v, b'.count v = b.count v ∨ b'.count v = 0
  | _ => True

end Turn

end WatchedContainers
