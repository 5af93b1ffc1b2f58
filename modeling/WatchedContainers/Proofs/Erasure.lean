import WatchedContainers.Proofs.SortedRange

/-!
# Taking an element out

What remains of a container after one of its elements was taken out: it is shorter by one, and the
elements that a walk over a copy still has to come are left.

* `CountedBag.size_lowered`, `CountedBag.sublist_lowered`: bags.
* `UniqueSet.take_of_mem`, `UniqueSet.sublist_take`: sets without an order.
-/

namespace WatchedContainers

variable {α : Type}

/-! ### Counted bags -/

namespace CountedBag

variable [Ord α]

/-- The elements of a list of entries, each as often as it is counted. -/
abbrev spread (l : List (α × Nat)) : List α := l.flatMap fun p => List.replicate p.2 p.1

theorem size_eq_length (b : CountedBag α) : b.size = b.toList.length := by
  rw [size, toList]
  induction b.counts with
  | nil => rfl
  | cons p l ih => simp [ih]

/-- The entry of an element, between those of smaller and of greater elements. -/
theorem exists_entry {b : CountedBag α} {v : α} {p : α × Nat} (h : b.entry? v = some p) :
    ∃ l₁ l₂, b.counts = l₁ ++ p :: l₂ ∧ compare v p.1 = .eq ∧
      ∀ q ∈ l₁, compare v q.1 ≠ .eq := by
  obtain ⟨hp, l₁, l₂, hl, h₁⟩ := List.find?_eq_some_iff_append.1 h
  exact ⟨l₁, l₂, hl, by simpa using hp, fun q hq => by simpa using h₁ q hq⟩

theorem lower_append {v : α} {n : Nat} {p : α × Nat} {l₁ l₂ : List (α × Nat)}
    (hp : compare v p.1 = .eq) (h₁ : ∀ q ∈ l₁, compare v q.1 ≠ .eq) :
    lower v n (l₁ ++ p :: l₂) =
      l₁ ++ if p.2 - n = 0 then l₂ else (p.1, p.2 - n) :: l₂ := by
  induction l₁ with
  | nil => simp [lower, hp]
  | cons q l₁ ih =>
    have hq := h₁ q List.mem_cons_self
    rw [List.cons_append, lower, if_neg (by simpa using hq),
      ih fun x hx => h₁ x (List.mem_cons_of_mem _ hx), List.cons_append]

theorem toList_lowered {b : CountedBag α} {v : α} {p : α × Nat} (h : b.entry? v = some p) :
    ∃ l₁ l₂, b.toList = l₁ ++ p.1 :: l₂ ∧ (b.lowered v 1).toList = l₁ ++ l₂ ∧
      ∀ x ∈ l₁, compare v x ≠ .eq := by
  obtain ⟨l₁, l₂, hl, hp, h₁⟩ := exists_entry h
  have hpos : 0 < p.2 := b.positive p (by rw [hl]; simp)
  obtain ⟨n, hn⟩ : ∃ n, p.2 = n + 1 := ⟨p.2 - 1, by omega⟩
  refine ⟨spread l₁, List.replicate n p.1 ++ spread l₂, ?_, ?_, fun x hx => ?_⟩
  · rw [toList, hl, List.flatMap_append, List.flatMap_cons, hn, List.replicate_succ,
      List.cons_append]
  · change spread (lower v 1 b.counts) = _
    rw [hl, lower_append hp h₁, spread, List.flatMap_append]
    refine congrArg (spread l₁ ++ ·) ?_
    rw [hn, Nat.add_sub_cancel]
    by_cases h0 : n = 0
    · rw [if_pos h0, h0, List.replicate_zero, List.nil_append]
    · rw [if_neg h0, List.flatMap_cons]
  · obtain ⟨q, hq, hx⟩ := List.mem_flatMap.1 hx
    rw [List.eq_of_mem_replicate hx]
    exact h₁ q hq

theorem size_lowered {b : CountedBag α} {v : α} {p : α × Nat} (h : b.entry? v = some p) :
    (b.lowered v 1).size + 1 = b.size := by
  obtain ⟨l₁, l₂, hb, hl, -⟩ := toList_lowered h
  rw [size_eq_length, size_eq_length, hb, hl]
  simp
  omega

variable [Std.TransOrd α]

theorem entry?_of_mem {b : CountedBag α} {v : α} (hv : v ∈ b.toList) :
    ∃ n, b.entry? v = some (v, n) := by
  obtain ⟨q, hq, hvq⟩ := List.mem_flatMap.1 hv
  obtain rfl := List.eq_of_mem_replicate hvq
  cases he : b.entry? q.1 with
  | none =>
    have := List.find?_eq_none.1 he q hq
    simp at this
  | some p =>
    have hpq : p = q := by
      have hp := List.mem_of_find?_eq_some he
      have hcmp : compare q.1 p.1 = .eq := by simpa using List.find?_some he
      obtain ⟨i, hi, rfl⟩ := List.mem_iff_getElem.1 hp
      obtain ⟨k, hk, rfl⟩ := List.mem_iff_getElem.1 hq
      have hasc := List.pairwise_iff_getElem.1 b.ascending
      rcases Nat.lt_trichotomy i k with hlt | rfl | hgt
      · exact absurd (hasc i k hi hk hlt) (by simp [Precedes, Std.OrientedCmp.eq_symm hcmp])
      · rfl
      · exact absurd (hasc k i hk hi hgt) (by simp [Precedes, hcmp])
    exact ⟨q.2, by rw [hpq]⟩

/-- Taking out an element that a walk has produced leaves those still to come. -/
theorem sublist_lowered {b : CountedBag α} {v : α} {l : List α} (h : (v :: l).Sublist b.toList) :
    l.Sublist (b.lowered v 1).toList := by
  obtain ⟨n, hv⟩ := entry?_of_mem (h.subset List.mem_cons_self)
  obtain ⟨l₁, l₂, hb, hl, h₁⟩ := toList_lowered hv
  rw [hb] at h
  obtain ⟨u₁, u₂, hu, hu₁, hu₂⟩ := List.sublist_append_iff.1 h
  cases u₁ with
  | cons x u₁ =>
    obtain rfl : v = x := (List.cons.inj hu).1
    exact absurd Std.ReflOrd.compare_self (h₁ v (hu₁.subset List.mem_cons_self))
  | nil =>
    rw [List.nil_append] at hu
    rw [← hu] at hu₂
    rw [hl]
    exact (List.cons_sublist_cons.1 hu₂).trans (List.sublist_append_right ..)

end CountedBag

/-! ### Sets without an order -/

namespace UniqueSet

variable [BEq α] [EquivBEq α] {s : UniqueSet α} {v : α} {l : List α}

theorem ne_of_append {l₁ l₂ : List α} (hs : s.items = l₁ ++ v :: l₂) :
    (∀ a ∈ l₁, (a == v) = false) ∧ ∀ a ∈ l₂, (a == v) = false := by
  have hp := s.distinct
  rw [hs, List.pairwise_append] at hp
  obtain ⟨-, hp₂, hp₁⟩ := hp
  refine ⟨fun a ha => hp₁ a ha v List.mem_cons_self, fun a ha => ?_⟩
  rw [BEq.comm]
  exact (List.pairwise_cons.1 hp₂).1 a ha

theorem take_of_mem (hv : v ∈ s.items) :
    (s.take v).1 = some v ∧ (s.take v).2.items.length + 1 = s.items.length := by
  obtain ⟨l₁, l₂, hs⟩ := List.append_of_mem hv
  obtain ⟨hne₁, hne₂⟩ := ne_of_append hs
  have h₁ : ∀ a ∈ l₁, !(a == v) := by
    intro a ha
    rw [hne₁ a ha]
    rfl
  have h₂ : ∀ a ∈ l₂, !(a == v) := by
    intro a ha
    rw [hne₂ a ha]
    rfl
  constructor
  · have hnone : l₁.find? (· == v) = none :=
      List.find?_eq_none.2 fun a ha => Bool.eq_false_iff.1 (hne₁ a ha)
    rw [take, hs, List.find?_append, hnone]
    simp
  · simp only [take, filter]
    rw [hs, filter_middle h₁ (by simp) h₂]
    simp only [List.length_append, List.length_cons]
    omega

theorem sublist_take (h : (v :: l).Sublist s.items) : l.Sublist (s.take v).2.items := by
  have hd := s.distinct.sublist h
  have hl : (v :: l).filter (fun a => !(a == v)) = l := by
    rw [List.filter_cons_of_neg (by simp)]
    refine List.filter_eq_self.2 fun a ha => ?_
    rw [BEq.comm, (List.pairwise_cons.1 hd).1 a ha]
    rfl
  have := h.filter fun a => !(a == v)
  rwa [hl] at this

end UniqueSet

end WatchedContainers
