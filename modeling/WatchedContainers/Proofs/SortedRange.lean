import WatchedContainers.Watched.Mutation

/-!
# Ranges of a sorted set

A range of a sorted set is read by a filter, and it is emptied of elements by a walk that resumes
after the element produced last.  The walk sees every element of the range once, so it filters the
range and leaves alone what lies outside.

* `SortedSet.within_eq`: reading a range.
* `SortedSet.filter_rest`: what is still to come after an element was produced.
* `SubRange.walk_induct`: the induction along a walk that removes.
* `SubRange.retain_eq`: **a walk over a range is a filter** of the whole set.
* `SubRange.operation_eq`: the mutation that a command at a range stands for.
-/

namespace WatchedContainers

variable {α : Type} [Ord α] [Std.TransOrd α]

/-! ### Bounds -/

omit [Ord α] [Std.TransOrd α] in
theorem filter_middle {p : α → Bool} {v : α} {l₁ l₂ : List α} (h₁ : ∀ a ∈ l₁, p a)
    (hv : p v = false) (h₂ : ∀ a ∈ l₂, p a) : (l₁ ++ v :: l₂).filter p = l₁ ++ l₂ := by
  rw [List.filter_append, List.filter_cons_of_neg (by simp [hv]), List.filter_eq_self.2 h₁,
    List.filter_eq_self.2 h₂]

namespace Bound

/-- What is above an allowed value is allowed by a lower bound. -/
theorem allowsFrom_of_lt {b : Bound α} {v x : α} (hv : b.allowsFrom v) (hx : compare v x = .lt) :
    b.allowsFrom x := by
  cases b with
  | included y => exact Ordering.isLE_of_eq_lt (Std.TransCmp.lt_of_isLE_of_lt hv hx)
  | excluded y =>
    simp only [allowsFrom, beq_iff_eq] at hv ⊢
    exact Std.TransCmp.lt_trans hv hx
  | unbounded => rfl

end Bound

namespace Bounds

/-- Bounds that may not be asked of an ordered set contain nothing. -/
theorem contains_eq_false {b : Bounds α} (hb : b.isOrdered = false) (v : α) :
    b.contains v = false := by
  refine Bool.eq_false_iff.2 fun hv => Bool.eq_false_iff.1 hb ?_
  obtain ⟨lower, upper⟩ := b
  obtain ⟨hl, hu⟩ := Bool.and_eq_true_iff.1 hv
  cases lower <;> cases upper <;>
    simp only [Bound.allowsFrom, Bound.allowsTo, isOrdered, beq_iff_eq] at hl hu ⊢
  · exact Std.TransCmp.isLE_trans hl hu
  · exact Ordering.isLE_of_eq_lt (Std.TransCmp.lt_of_isLE_of_lt hl hu)
  · exact Ordering.isLE_of_eq_lt (Std.TransCmp.lt_of_lt_of_isLE hl hu)
  · exact Std.TransCmp.lt_trans hl hu

end Bounds

namespace SortedSet

/-! ### Elements -/

theorem eq_of_compare (s : SortedSet α) {a b : α} (ha : a ∈ s.items) (hb : b ∈ s.items)
    (h : compare a b = .eq) : a = b := by
  obtain ⟨i, hi, rfl⟩ := List.mem_iff_getElem.1 ha
  obtain ⟨k, hk, rfl⟩ := List.mem_iff_getElem.1 hb
  have hp := List.pairwise_iff_getElem.1 s.ascending
  rcases Nat.lt_trichotomy i k with hlt | rfl | hgt
  · exact absurd (hp i k hi hk hlt) (by simp [Precedes, h])
  · rfl
  · exact absurd (hp k i hk hi hgt) (by simp [Precedes, Std.OrientedCmp.eq_symm h])

/-- The elements in front of an element are smaller, those behind it are greater. -/
theorem compare_of_append (s : SortedSet α) {v : α} {l₁ l₂ : List α}
    (hs : s.items = l₁ ++ v :: l₂) :
    (∀ a ∈ l₁, compare v a = .gt) ∧ ∀ a ∈ l₂, compare v a = .lt := by
  have hp := s.ascending
  rw [hs, List.pairwise_append] at hp
  obtain ⟨-, hp₂, hp₁⟩ := hp
  exact ⟨fun a ha => Std.OrientedCmp.gt_of_lt (hp₁ a ha v List.mem_cons_self),
    (List.pairwise_cons.1 hp₂).1⟩

omit [Std.TransOrd α] in
theorem range?_eq (s : SortedSet α) {b : Bounds α} (hb : b.isOrdered) :
    s.range? b = some (s.items.filter b.contains) := by
  obtain ⟨lower, upper⟩ := b
  unfold range?
  split
  next x y hx hy =>
    have hle : (compare x y).isLE := by
      cases lower <;> cases upper <;>
        simp only [Bound.value?, Option.some.injEq, Bounds.isOrdered, beq_iff_eq, reduceCtorEq]
          at hx hy hb <;> subst hx hy
      · exact hb
      · exact hb
      · exact hb
      · exact Ordering.isLE_of_eq_lt hb
    rw [if_neg (by cases h : compare x y <;> simp_all), if_neg]
    cases lower <;> cases upper <;>
      simp_all [Bound.value?, Bounds.isOrdered, Bound.isExcluded]
  next => rfl

omit [Std.TransOrd α] in
theorem ext {s t : SortedSet α} (h : s.items = t.items) : s = t := by
  cases s
  cases t
  cases h
  rfl

omit [Std.TransOrd α] in
theorem filter_congr {s : SortedSet α} {p q : α → Bool} (h : ∀ x ∈ s.items, p x = q x) :
    s.filter p = s.filter q :=
  ext (List.filter_congr h)

omit [Std.TransOrd α] in
theorem filter_eq_self {s : SortedSet α} {p : α → Bool} (h : ∀ x ∈ s.items, p x) :
    s.filter p = s :=
  ext (List.filter_eq_self.2 h)

theorem within_eq (s : SortedSet α) (b : Bounds α) : s.within b = s.items.filter b.contains := by
  unfold within
  by_cases hb : b.isOrdered
  · rw [if_pos hb, range?_eq s hb, Option.getD_some]
  · rw [if_neg hb, eq_comm, List.filter_eq_nil_iff]
    intro a _
    simp [Bounds.contains_eq_false (Bool.eq_false_iff.2 hb)]

theorem sizeWithin_eq (s : SortedSet α) (b : Bounds α) :
    s.sizeWithin b = (s.items.filter b.contains).length := by
  rw [← within_eq]
  unfold sizeWithin within
  split <;> rfl

/-! ### Removal -/

theorem find?_eq_of_mem (s : SortedSet α) {v : α} (hv : v ∈ s.items) :
    (s.items.find? fun a => compare v a == .eq) = some v := by
  cases hf : s.items.find? fun a => compare v a == .eq with
  | none =>
    have := List.find?_eq_none.1 hf v hv
    simp at this
  | some a =>
    have ha := List.find?_some hf
    rw [s.eq_of_compare hv (List.mem_of_find?_eq_some hf) (by simpa using ha)]

theorem length_take_add_one (s : SortedSet α) {v : α} (hv : v ∈ s.items) :
    (s.take v).2.items.length + 1 = s.items.length := by
  obtain ⟨l₁, l₂, hs⟩ := List.append_of_mem hv
  obtain ⟨hp₁, hp₂⟩ := s.compare_of_append hs
  have h₁ : ∀ a ∈ l₁, compare v a != .eq := by
    intro a ha
    rw [hp₁ a ha]
    rfl
  have h₂ : ∀ a ∈ l₂, compare v a != .eq := by
    intro a ha
    rw [hp₂ a ha]
    rfl
  have hv : (compare v v != .eq) = false := by simp
  simp only [SortedSet.take, SortedSet.filter]
  rw [hs, filter_middle h₁ hv h₂]
  simp only [List.length_append, List.length_cons]
  omega

/-! ### Walking over a range -/

variable {s : SortedSet α} {cur : ResumingCursor α} {v : α} {l : List α}

omit [Std.TransOrd α] in
theorem contains_rest_produce (cur : ResumingCursor α) (v x : α) :
    (cur.produce v).rest.contains x =
      (compare v x == .lt && cur.bounds.upper.allowsTo x) := rfl

omit [Ord α] [Std.TransOrd α] in
theorem upper_rest (cur : ResumingCursor α) : cur.rest.upper = cur.bounds.upper := by
  unfold ResumingCursor.rest
  split <;> rfl

/-- **One step of a walk**: the element produced is the first one of the rest, and what remains is
the rest without it. -/
theorem filter_rest (h : s.items.filter cur.rest.contains = v :: l) :
    v ∈ s.items ∧ cur.rest.contains v ∧
      s.items.filter (cur.produce v).rest.contains = l ∧
      ∀ x ∈ s.items, x ≠ v → compare v x ≠ .eq ∧
        (cur.produce v).rest.contains x = cur.rest.contains x := by
  obtain ⟨l₁, l₂, hs, h₁, hv, h₂⟩ := List.filter_eq_cons_iff.1 h
  obtain ⟨hp₁, hp₂⟩ := s.compare_of_append hs
  obtain ⟨hfrom, hto⟩ := Bool.and_eq_true_iff.1 hv
  have hr₁ : ∀ x ∈ l₁, (cur.produce v).rest.contains x = false := by
    intro x hx
    rw [contains_rest_produce, hp₁ x hx]
    rfl
  have hr₂ : ∀ x ∈ l₂, (cur.produce v).rest.contains x = cur.rest.contains x := by
    intro x hx
    rw [contains_rest_produce, hp₂ x hx, Bounds.contains, upper_rest,
      Bound.allowsFrom_of_lt hfrom (hp₂ x hx)]
    rfl
  have hrv : (cur.produce v).rest.contains v = false := by
    rw [contains_rest_produce, Std.ReflOrd.compare_self]
    rfl
  refine ⟨hs ▸ by simp, hv, ?_, ?_⟩
  · have hnone : l₁.filter (cur.produce v).rest.contains = [] :=
      List.filter_eq_nil_iff.2 fun x hx => Bool.eq_false_iff.1 (hr₁ x hx)
    rw [hs, List.filter_append, List.filter_cons_of_neg (by simp [hrv]), hnone,
      List.filter_congr hr₂, h₂, List.nil_append]
  · intro x hx hne
    rw [hs] at hx
    rcases List.mem_append.1 hx with hx | hx
    · exact ⟨by simp [hp₁ x hx], by rw [hr₁ x hx, Bool.eq_false_iff.2 (h₁ x hx)]⟩
    · have hx := (List.mem_cons.1 hx).resolve_left hne
      exact ⟨by simp [hp₂ x hx], hr₂ x hx⟩

omit [Std.TransOrd α] in
/-- What a cursor resumes with does not depend on the element it resumes after. -/
theorem filter_rest_take (hlast : cur.last = some v) :
    (s.take v).2.items.filter cur.rest.contains = s.items.filter cur.rest.contains := by
  rw [take, filter, List.filter_filter]
  refine List.filter_congr ?_
  intro x _
  simp only [ResumingCursor.rest, hlast, Bounds.contains, Bound.allowsFrom]
  cases compare v x <;> simp

theorem next_eq_none (h : s.items.filter cur.rest.contains = []) : next cur s = (none, cur) := by
  rw [next, within_eq, h]
  rfl

theorem next_eq_some (h : s.items.filter cur.rest.contains = v :: l) :
    next cur s = (some v, cur.produce v) := by
  rw [next, within_eq, h]
  rfl

theorem removeLast_produce (hv : v ∈ s.items) :
    removeLast (cur.produce v) s =
      (some v, { cur.produce v with removable := false }, (s.take v).2) := by
  simp only [removeLast, ResumingCursor.produce, if_true, SortedSet.take, s.find?_eq_of_mem hv]

end SortedSet

/-! ### Sweeping a range -/

namespace SubRange

open SortedSet (outsideOr)

omit [Ord α] [Std.TransOrd α] in
theorem length_filter_bne (l : List α) (p : α → Bool) :
    ((l.filter p).length != l.length) = l.any fun x => !p x := by
  rw [Bool.eq_iff_iff]
  simp only [bne_iff_ne, ne_eq, List.length_filter_eq_length_iff, List.any_eq_true,
    Bool.not_eq_true', Classical.not_forall, exists_prop, Bool.not_eq_true]

/-- An element that passes the test stays, whether it counts as still to come or not. -/
theorem filter_kept {keep : α → Bool} {cur : ResumingCursor α} {s : SortedSet α} {v : α}
    {l : List α} (hl : s.items.filter cur.rest.contains = v :: l) (hk : keep v) :
    s.filter (outsideOr (cur.produce v).rest keep) = s.filter (outsideOr cur.rest keep) := by
  obtain ⟨-, -, -, hother⟩ := SortedSet.filter_rest hl
  refine SortedSet.filter_congr ?_
  intro x hx
  by_cases hxv : x = v
  · simp [outsideOr, hxv, hk]
  · simp only [outsideOr, (hother x hx hxv).2]

/-- An element that fails the test is taken out at once instead of later. -/
theorem filter_taken {keep : α → Bool} {cur : ResumingCursor α} {s : SortedSet α} {v : α}
    {l : List α} (hl : s.items.filter cur.rest.contains = v :: l) (hk : ¬ keep v) :
    (s.take v).2.filter (outsideOr (cur.produce v).rest keep) =
      s.filter (outsideOr cur.rest keep) := by
  obtain ⟨-, hrv, -, hother⟩ := SortedSet.filter_rest hl
  refine SortedSet.ext ?_
  simp only [SortedSet.take, SortedSet.filter, List.filter_filter]
  refine List.filter_congr ?_
  intro x hx
  by_cases hxv : x = v
  · simp [outsideOr, hxv, hrv, hk]
  · obtain ⟨hne, hsame⟩ := hother x hx hxv
    simp [outsideOr, hsame, hne]

theorem rest_take {cur : ResumingCursor α} {s : SortedSet α} {v : α} {l : List α}
    (hl : s.items.filter cur.rest.contains = v :: l) :
    (s.take v).2.items.filter (cur.produce v).rest.contains = l := by
  obtain ⟨-, -, hrest, -⟩ := SortedSet.filter_rest hl
  rw [SortedSet.filter_rest_take rfl, hrest]

/-- **Along a walk.**  A walk that has the fuel for all elements still to come is at its end, or it
produces the first of them.  An element that passes the test stays, another one is taken out, and
the walk goes on with the elements behind it. -/
theorem walk_induct (keep : α → Bool) {motive : Nat → ResumingCursor α → SortedSet α → Prop}
    (done : ∀ fuel cur s, s.items.filter cur.rest.contains = [] →
      Traversal.next cur s = (none, cur) → motive (fuel + 1) cur s)
    (kept : ∀ fuel cur s v l, s.items.filter cur.rest.contains = v :: l →
      s.items.filter (cur.produce v).rest.contains = l → keep v →
      Traversal.next cur s = (some v, cur.produce v) →
      motive fuel (cur.produce v) s → motive (fuel + 1) cur s)
    (removed : ∀ fuel cur cur' s s' v l, s.items.filter cur.rest.contains = v :: l →
      s'.items.filter cur'.rest.contains = l → ¬ keep v →
      Traversal.next cur s = (some v, cur.produce v) →
      Traversal.remove (cur.produce v) s = (some v, cur', s') →
      s'.filter (outsideOr cur'.rest keep) = s.filter (outsideOr cur.rest keep) →
      motive fuel cur' s' → motive (fuel + 1) cur s)
    (fuel : Nat) (cur : ResumingCursor α) (s : SortedSet α)
    (hfuel : (s.items.filter cur.rest.contains).length < fuel) : motive fuel cur s := by
  induction fuel generalizing cur s with
  | zero => exact absurd hfuel (Nat.not_lt_zero _)
  | succ fuel ih =>
    cases hl : s.items.filter cur.rest.contains with
    | nil => exact done fuel cur s hl (SortedSet.next_eq_none hl)
    | cons v l =>
      obtain ⟨hv, -, hrest, -⟩ := SortedSet.filter_rest hl
      have hnext := SortedSet.next_eq_some hl
      rw [hl, List.length_cons] at hfuel
      by_cases hk : keep v
      · exact kept fuel cur s v l hl hrest hk hnext (ih _ _ (by rw [hrest]; omega))
      · -- the cursor may not remove again, but it walks on from the same place
        have hlater := rest_take hl
        have hsame := filter_taken hl hk
        have hcount : ((s.take v).2.items.filter (cur.produce v).rest.contains).length < fuel := by
          rw [hlater]
          omega
        exact removed fuel cur { cur.produce v with removable := false } s (s.take v).2 v l hl
          hlater hk hnext (SortedSet.removeLast_produce hv) hsame (ih _ _ hcount)

/-- A sweep removes what fails the test from the elements still to come. -/
theorem sweep_eq (keep : α → Bool) (fuel : Nat) (cur : ResumingCursor α) (s : SortedSet α)
    (hfuel : (s.items.filter cur.rest.contains).length < fuel) :
    sweep keep fuel cur s =
      ((s.items.filter cur.rest.contains).any fun x => !keep x,
        s.filter (outsideOr cur.rest keep)) := by
  refine walk_induct keep (motive := fun fuel cur s => sweep keep fuel cur s =
    ((s.items.filter cur.rest.contains).any fun x => !keep x,
      s.filter (outsideOr cur.rest keep))) ?_ ?_ ?_ fuel cur s hfuel
  · intro fuel cur s hl hnext
    have hall : ∀ x ∈ s.items, outsideOr cur.rest keep x := by
      intro x hx
      have := List.filter_eq_nil_iff.1 hl x hx
      simp [outsideOr, this]
    rw [sweep, hnext, hl, SortedSet.filter_eq_self hall]
    rfl
  · intro fuel cur s v l hl hrest hk hnext ih
    rw [hrest, filter_kept hl hk] at ih
    simp only [sweep, hnext, if_pos hk, ih, hl]
    simp [hk]
  · intro fuel cur cur' s s' v l hl hrest hk hnext hremove hsame ih
    rw [hrest, hsame] at ih
    simp only [sweep, hnext, if_neg hk, hremove, ih, hl]
    simp [hk]

/-- A walk over a range removes what fails the test, and tells whether anything did. -/
theorem retain_within (s : SortedSet α) (b : Bounds α) (keep : α → Bool) :
    retain (⟨s, b⟩ : SubRange (SortedSet α) α) keep =
      ((s.items.filter b.contains).any fun x => !keep x, s.filter (outsideOr b keep)) :=
  sweep_eq keep _ (s.cursorWithin b) s (Nat.lt_succ_of_le (List.length_filter_le ..))

/-- **A walk over a range is a filter** that keeps what is out of bounds. -/
theorem retain_eq [BEq α] (s : SortedSet α) (b : Bounds α) (keep : α → Bool) :
    retain (⟨s, b⟩ : SubRange (SortedSet α) α) keep = Collection.retain s (outsideOr b keep) := by
  refine (retain_within s b keep).trans (Prod.ext ?_ rfl)
  change _ = ((s.items.filter (outsideOr b keep)).length != s.items.length)
  rw [length_filter_bne, List.any_filter]
  refine congrArg (s.items.any ·) (funext fun x => ?_)
  simp only [outsideOr, Bool.not_or, Bool.not_not]

/-! ### Commands -/

variable [BEq α]

theorem operation_eq (s : SortedSet α) (b : Bounds α) (command : Command α) :
    (operation? command).map (· (⟨s, b⟩ : SubRange (SortedSet α) α)) =
      Mutation.planned Collection.size command s (SubRange.mk · b)
        ((SortedSet.rangeMutation? b command).map (· s)) := by
  cases command with
  | add v =>
    refine congrArg some ((Operation.answering_eq rfl).trans ?_)
    rw [planAdd]
    by_cases hv : inRange (⟨s, b⟩ : SubRange (SortedSet α) α) v
    · rw [if_pos hv]
      simp only [if_pos (show b.contains v from hv)]
      rfl
    · rw [if_neg hv]
      simp only [if_neg (show ¬ b.contains v from hv)]
      rfl
  | addAll vs =>
    refine congrArg some ((Operation.answering_eq rfl).trans ?_)
    rw [planAddAll]
    by_cases hvs : vs.all (inRange (⟨s, b⟩ : SubRange (SortedSet α) α))
    · rw [if_pos hvs]
      simp only [if_pos (show vs.all b.contains from hvs)]
      rfl
    · rw [if_neg hvs]
      simp only [if_neg (show ¬ vs.all b.contains from hvs)]
      rfl
  | remove v =>
    refine congrArg some ((Operation.answering_eq rfl).trans ?_)
    rw [planRemove]
    by_cases hv : inRange (⟨s, b⟩ : SubRange (SortedSet α) α) v
    · rw [if_pos hv]
      simp only [if_pos (show b.contains v from hv)]
      rfl
    · rw [if_neg hv]
      simp only [if_neg (show ¬ b.contains v from hv)]
      rfl
  | removeAll vs =>
    refine congrArg some ((Operation.answering_eq rfl).trans ?_)
    rw [planRemoveAll, retain_eq]
    rfl
  | retainAll vs =>
    refine congrArg some ((Operation.answering_eq rfl).trans ?_)
    rw [planRetainAll, retain_eq]
    rfl
  | clear =>
    refine congrArg some ((Operation.answering_eq rfl).trans ?_)
    rw [planClear, retain_eq]
    rfl
  | _ => rfl

end SubRange

end WatchedContainers
