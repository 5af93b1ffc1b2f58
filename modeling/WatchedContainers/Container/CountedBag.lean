import WatchedContainers.Container.Cursor

/-!
# Counted bags

A bag keeps each element once, together with how often it occurs, in ascending order.  What it
answers to an addition of copies is fixed when the bag is made, whatever happened.
-/

namespace WatchedContainers

/-- What is counted under each element, in ascending order of the elements.  An element that does
not occur is not listed. -/
structure CountedBag (α : Type) [Ord α] where
  counts : List (α × Nat)
  ascending : counts.Pairwise fun p q => Precedes p.1 q.1
  positive : ∀ p ∈ counts, 0 < p.2
  reportsAdded : Bool

namespace CountedBag

variable {α : Type} [Ord α]

def reporting (reportsAdded : Bool) : CountedBag α := ⟨[], .nil, by simp, reportsAdded⟩

def toList (b : CountedBag α) : List α := b.counts.flatMap fun p => List.replicate p.2 p.1

def size (b : CountedBag α) : Nat := b.counts.foldr (fun e n => e.2 + n) 0

def entry? (b : CountedBag α) (v : α) : Option (α × Nat) :=
  b.counts.find? fun p => compare v p.1 == .eq

def count (b : CountedBag α) (v : α) : Nat := ((b.entry? v).map (·.2)).getD 0

/-! ### Counting up and down -/

/-- Counts `n` more occurrences of `v`, next to what is counted under an equal element. -/
def raise (v : α) (n : Nat) : List (α × Nat) → List (α × Nat)
  | [] => [(v, n)]
  | p :: rest =>
    match compare v p.1 with
    | .lt => (v, n) :: p :: rest
    | .eq => (p.1, p.2 + n) :: rest
    | .gt => p :: raise v n rest

/-- Counts `n` fewer occurrences of `v`.  An element that no longer occurs is forgotten. -/
def lower (v : α) (n : Nat) : List (α × Nat) → List (α × Nat)
  | [] => []
  | p :: rest =>
    if compare v p.1 == .eq then
      if p.2 - n = 0 then rest else (p.1, p.2 - n) :: rest
    else p :: lower v n rest

theorem mem_raise {v : α} {n : Nat} {q : α × Nat} {l : List (α × Nat)} (h : q ∈ raise v n l) :
    (q.1 = v ∨ ∃ p ∈ l, q.1 = p.1) ∧ (n ≤ q.2 ∨ q ∈ l) := by
  induction l with
  | nil =>
    rw [List.mem_singleton.1 h]
    exact ⟨Or.inl rfl, Or.inl (Nat.le_refl _)⟩
  | cons p rest ih =>
    unfold raise at h
    split at h
    · rcases List.mem_cons.1 h with rfl | h
      · exact ⟨Or.inl rfl, Or.inl (Nat.le_refl _)⟩
      · exact ⟨Or.inr ⟨q, h, rfl⟩, Or.inr h⟩
    · rcases List.mem_cons.1 h with rfl | h
      · exact ⟨Or.inr ⟨p, List.mem_cons_self, rfl⟩, Or.inl (Nat.le_add_left ..)⟩
      · exact ⟨Or.inr ⟨q, List.mem_cons_of_mem _ h, rfl⟩, Or.inr (List.mem_cons_of_mem _ h)⟩
    · rcases List.mem_cons.1 h with rfl | h
      · exact ⟨Or.inr ⟨q, List.mem_cons_self, rfl⟩, Or.inr List.mem_cons_self⟩
      · obtain ⟨hkey, hcount⟩ := ih h
        exact ⟨hkey.imp_right fun ⟨p, hp, e⟩ => ⟨p, List.mem_cons_of_mem _ hp, e⟩,
          hcount.imp_right (List.mem_cons_of_mem _)⟩

theorem pairwise_raise [Std.TransOrd α] (v : α) (n : Nat) {l : List (α × Nat)}
    (h : l.Pairwise fun p q => Precedes p.1 q.1) :
    (raise v n l).Pairwise fun p q => Precedes p.1 q.1 := by
  induction l with
  | nil => exact List.pairwise_singleton _ _
  | cons p rest ih =>
    obtain ⟨hp, hr⟩ := List.pairwise_cons.1 h
    unfold raise
    split
    next hc =>
      refine List.pairwise_cons.2 ⟨fun q hq => ?_, h⟩
      rcases List.mem_cons.1 hq with rfl | hq
      · exact hc
      · exact Std.TransCmp.lt_trans hc (hp q hq)
    next => exact List.pairwise_cons.2 ⟨hp, hr⟩
    next hc =>
      refine List.pairwise_cons.2 ⟨fun q hq => ?_, ih hr⟩
      rcases (mem_raise hq).1 with hq | ⟨x, hx, hq⟩
      · exact hq ▸ Std.OrientedCmp.lt_of_gt hc
      · exact hq ▸ hp x hx

theorem mem_lower {v : α} {n : Nat} {q : α × Nat} {l : List (α × Nat)} (h : q ∈ lower v n l) :
    (∃ p ∈ l, q.1 = p.1) ∧ (0 < q.2 ∨ q ∈ l) := by
  induction l with
  | nil => exact absurd h List.not_mem_nil
  | cons p rest ih =>
    unfold lower at h
    split at h
    · split at h
      · exact ⟨⟨q, List.mem_cons_of_mem _ h, rfl⟩, Or.inr (List.mem_cons_of_mem _ h)⟩
      · rcases List.mem_cons.1 h with rfl | h
        · exact ⟨⟨p, List.mem_cons_self, rfl⟩, Or.inl (by omega)⟩
        · exact ⟨⟨q, List.mem_cons_of_mem _ h, rfl⟩, Or.inr (List.mem_cons_of_mem _ h)⟩
    · rcases List.mem_cons.1 h with rfl | h
      · exact ⟨⟨q, List.mem_cons_self, rfl⟩, Or.inr List.mem_cons_self⟩
      · obtain ⟨⟨x, hx, hkey⟩, hcount⟩ := ih h
        exact ⟨⟨x, List.mem_cons_of_mem _ hx, hkey⟩, hcount.imp_right (List.mem_cons_of_mem _)⟩

theorem pairwise_lower (v : α) (n : Nat) {l : List (α × Nat)}
    (h : l.Pairwise fun p q => Precedes p.1 q.1) :
    (lower v n l).Pairwise fun p q => Precedes p.1 q.1 := by
  induction l with
  | nil => exact .nil
  | cons p rest ih =>
    obtain ⟨hp, hr⟩ := List.pairwise_cons.1 h
    unfold lower
    split
    · split
      · exact hr
      · exact List.pairwise_cons.2 ⟨hp, hr⟩
    · refine List.pairwise_cons.2 ⟨fun q hq => ?_, ih hr⟩
      obtain ⟨x, hx, hkey⟩ := (mem_lower hq).1
      exact hkey ▸ hp x hx

/-! ### Operations -/

def raised [Std.TransOrd α] (b : CountedBag α) (v : α) (n : Nat) (hn : 0 < n) : CountedBag α where
  counts := raise v n b.counts
  ascending := pairwise_raise v n b.ascending
  positive _ hq := (mem_raise hq).2.elim (Nat.lt_of_lt_of_le hn) (b.positive _)
  reportsAdded := b.reportsAdded

def lowered (b : CountedBag α) (v : α) (n : Nat) : CountedBag α where
  counts := lower v n b.counts
  ascending := pairwise_lower v n b.ascending
  positive _ hq := (mem_lower hq).2.elim id (b.positive _)
  reportsAdded := b.reportsAdded

def filter (b : CountedBag α) (keep : α → Bool) : CountedBag α where
  counts := b.counts.filter fun p => keep p.1
  ascending := b.ascending.filter _
  positive p hp := b.positive p (List.mem_filter.1 hp).1
  reportsAdded := b.reportsAdded

def addCopies [Std.TransOrd α] (b : CountedBag α) (v : α) (n : Nat) : Bool × CountedBag α :=
  (b.reportsAdded, if hn : 0 < n then b.raised v n hn else b)

def removeCopies (b : CountedBag α) (v : α) (n : Nat) : Bool × CountedBag α :=
  match b.entry? v with
  | some _ => (n != 0, b.lowered v n)
  | none => (false, b)

/-- Removes one occurrence.  The stored element is given back with its last occurrence, before
that the value itself. -/
def remove (b : CountedBag α) (v : α) : Option α × CountedBag α :=
  match b.entry? v with
  | some p => (some (if p.2 - 1 = 0 then p.1 else v), b.lowered v 1)
  | none => (none, b)

/-- Forgets the elements that fail the test, and tells whether the number of distinct elements
changed. -/
def retain (b : CountedBag α) (keep : α → Bool) : Bool × CountedBag α :=
  ((b.filter keep).counts.length != b.counts.length, b.filter keep)

instance [Std.TransOrd α] : Collection (CountedBag α) α where
  capabilities := .collection ||| .bag
  size := size
  contains b v := (b.entry? v).isSome
  add b v := (true, b.raised v 1 Nat.one_pos)
  remove := remove
  retain := retain
  clear b := reporting b.reportsAdded

instance : Traversal (CountedBag α) (CopyCursor α) α where
  cursor b := { items := b.toList }
  next cur _ := cur.advance
  remove cur b :=
    match cur.release with
    | (some v, cur) => ((b.remove v).1, cur, (b.remove v).2)
    | (none, cur) => (none, cur, b)

instance [Std.TransOrd α] : Counted (CountedBag α) α where
  count := count
  addCopies := addCopies
  removeCopies := removeCopies

instance : Noting (CountedBag α) := .silent _

end CountedBag

end WatchedContainers
