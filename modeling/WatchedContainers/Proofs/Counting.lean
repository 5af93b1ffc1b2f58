import Mathlib.Data.List.Basic
import WatchedContainers.Proofs.Outcome
import WatchedContainers.Watched.Tally

/-!
# Counting

* `CountedBag.countIn_raise`, `CountedBag.countIn_lower`: counting up or down one element leaves the
  counts of the others.
* `CountedBag.countIn_filter`: a filter keeps the count of an element or makes it 0.
* `Tally.proper_ofBag`: **a bag is a proper tally.**
-/

namespace WatchedContainers

variable {α : Type}

namespace CountedBag

variable [Ord α]

def countIn (l : List (α × Nat)) (v : α) : Nat :=
  ((l.find? fun p => compare v p.1 == .eq).map (·.2)).getD 0

variable {u v : α} {n : Nat} {p : α × Nat} {l : List (α × Nat)}

theorem countIn_nil (v : α) : countIn [] v = 0 := rfl

theorem countIn_cons (p : α × Nat) (l : List (α × Nat)) (v : α) :
    countIn (p :: l) v = if compare v p.1 = .eq then p.2 else countIn l v := by
  rw [countIn, List.find?_cons]
  by_cases hvp : compare v p.1 = .eq
  · rw [if_pos hvp, hvp]
    rfl
  · rw [if_neg hvp, beq_eq_false_iff_ne.2 hvp]
    rfl

theorem countIn_of_eq (hvp : compare v p.1 = .eq) : countIn (p :: l) v = p.2 := by
  rw [countIn_cons, if_pos hvp]

theorem countIn_of_ne (hvp : compare v p.1 ≠ .eq) : countIn (p :: l) v = countIn l v := by
  rw [countIn_cons, if_neg hvp]

theorem countIn_eq_zero (h : ∀ p ∈ l, compare v p.1 ≠ .eq) : countIn l v = 0 := by
  induction l with
  | nil => rfl
  | cons p rest ih =>
    obtain ⟨hp, hrest⟩ := List.forall_mem_cons.1 h
    rw [countIn_of_ne hp, ih hrest]

variable [Std.TransOrd α]

theorem countIn_congr (huv : compare u v = .eq) (l : List (α × Nat)) :
    countIn l u = countIn l v := by
  induction l with
  | nil => rfl
  | cons p rest ih => rw [countIn_cons, countIn_cons, Std.TransCmp.congr_left huv, ih]

/-- In ascending order nothing behind an element equal to `v` is equal to `v`. -/
theorem countIn_of_precedes (hvp : compare v p.1 = .eq) (hp : ∀ q ∈ l, Precedes p.1 q.1) :
    countIn l v = 0 := by
  apply countIn_eq_zero
  intro q hq
  rw [Std.TransCmp.congr_left hvp, show compare p.1 q.1 = .lt from hp q hq]
  decide

/-- In ascending order nothing is equal to an element that comes in front of the first one. -/
theorem countIn_of_lt (hvp : compare v p.1 = .lt) (hp : ∀ q ∈ l, Precedes p.1 q.1) :
    countIn (p :: l) v = 0 := by
  apply countIn_eq_zero
  intro q hq
  rcases List.mem_cons.1 hq with rfl | hq
  · rw [hvp]
    decide
  · rw [Std.TransCmp.lt_trans hvp (hp q hq)]
    decide

theorem compare_ne_of_eq (hvu : compare v u ≠ .eq) (hvp : compare v p.1 = .eq) :
    compare u p.1 ≠ .eq := by
  intro hup
  apply hvu
  rw [Std.TransCmp.congr_left hvp]
  exact Std.OrientedCmp.eq_symm hup

/-! ### Counting up -/

theorem countIn_raise_self (hl : l.Pairwise fun p q => Precedes p.1 q.1) (v : α) (n : Nat) :
    countIn (raise v n l) v = countIn l v + n := by
  induction l with
  | nil =>
    rw [raise, countIn_of_eq Std.ReflOrd.compare_self, countIn_nil, Nat.zero_add]
  | cons p rest ih =>
    obtain ⟨hp, hrest⟩ := List.pairwise_cons.1 hl
    unfold raise
    split
    next hvp =>
      rw [countIn_of_eq Std.ReflOrd.compare_self, countIn_of_lt hvp hp, Nat.zero_add]
    next hvp =>
      rw [countIn_of_eq hvp]
      exact countIn_of_eq hvp
    next hvp =>
      have hne : compare v p.1 ≠ .eq := by
        rw [hvp]
        decide
      rw [countIn_of_ne hne, countIn_of_ne hne, ih hrest]

theorem countIn_raise_of_ne (hvu : compare v u ≠ .eq) (n : Nat) (l : List (α × Nat)) :
    countIn (raise v n l) u = countIn l u := by
  have huv : compare u v ≠ .eq := mt Std.OrientedCmp.eq_symm hvu
  induction l with
  | nil => exact countIn_of_ne huv
  | cons p rest ih =>
    unfold raise
    split
    next => exact countIn_of_ne huv
    next hvp =>
      have hup := compare_ne_of_eq hvu hvp
      rw [countIn_of_ne hup]
      exact countIn_of_ne hup
    next => rw [countIn_cons, ih, countIn_cons]

/-- **Counting up** changes the count of one element. -/
theorem countIn_raise (hl : l.Pairwise fun p q => Precedes p.1 q.1) (v : α) (n : Nat) (u : α) :
    countIn (raise v n l) u = if compare v u = .eq then countIn l v + n else countIn l u := by
  by_cases hvu : compare v u = .eq
  · rw [if_pos hvu, ← countIn_congr hvu, countIn_raise_self hl]
  · rw [if_neg hvu, countIn_raise_of_ne hvu]

/-! ### Counting down -/

theorem countIn_lower_self (hl : l.Pairwise fun p q => Precedes p.1 q.1) (v : α) (n : Nat) :
    countIn (lower v n l) v = countIn l v - n := by
  induction l with
  | nil => exact (Nat.zero_sub n).symm
  | cons p rest ih =>
    obtain ⟨hp, hrest⟩ := List.pairwise_cons.1 hl
    unfold lower
    by_cases hvp : compare v p.1 = .eq
    · rw [if_pos (beq_iff_eq.2 hvp), countIn_of_eq hvp]
      by_cases hzero : p.2 - n = 0
      · rw [if_pos hzero, countIn_of_precedes hvp hp, hzero]
      · rw [if_neg hzero]
        exact countIn_of_eq hvp
    · rw [if_neg (by simpa using hvp), countIn_of_ne hvp, countIn_of_ne hvp, ih hrest]

theorem countIn_lower_of_ne (hvu : compare v u ≠ .eq) (n : Nat) (l : List (α × Nat)) :
    countIn (lower v n l) u = countIn l u := by
  induction l with
  | nil => rfl
  | cons p rest ih =>
    unfold lower
    by_cases hvp : compare v p.1 = .eq
    · have hup := compare_ne_of_eq hvu hvp
      rw [if_pos (beq_iff_eq.2 hvp), countIn_of_ne hup]
      by_cases hzero : p.2 - n = 0
      · rw [if_pos hzero]
      · rw [if_neg hzero]
        exact countIn_of_ne hup
    · rw [if_neg (by simpa using hvp), countIn_cons, ih, countIn_cons]

/-- **Counting down** changes the count of one element. -/
theorem countIn_lower (hl : l.Pairwise fun p q => Precedes p.1 q.1) (v : α) (n : Nat) (u : α) :
    countIn (lower v n l) u = if compare v u = .eq then countIn l v - n else countIn l u := by
  by_cases hvu : compare v u = .eq
  · rw [if_pos hvu, ← countIn_congr hvu, countIn_lower_self hl]
  · rw [if_neg hvu, countIn_lower_of_ne hvu]

omit [Std.TransOrd α] in
theorem total_lower (v : α) (n : Nat) (l : List (α × Nat)) :
    total l = total (lower v n l) + min n (countIn l v) := by
  induction l with
  | nil => simp [lower, countIn_nil]
  | cons p rest ih =>
    unfold lower
    by_cases hvp : compare v p.1 = .eq
    · rw [if_pos (beq_iff_eq.2 hvp), countIn_of_eq hvp, total_cons]
      by_cases hzero : p.2 - n = 0
      · rw [if_pos hzero]
        omega
      · rw [if_neg hzero, total_cons]
        omega
    · rw [if_neg (by simpa using hvp), countIn_of_ne hvp, total_cons, total_cons, ih, Nat.add_assoc]

/-! ### Filters -/

/-- **A filter** keeps the count of an element or makes it 0. -/
theorem countIn_filter (hl : l.Pairwise fun p q => Precedes p.1 q.1) (keep : α → Bool) (v : α) :
    countIn (l.filter fun p => keep p.1) v = countIn l v ∨
      countIn (l.filter fun p => keep p.1) v = 0 := by
  induction l with
  | nil => exact .inl rfl
  | cons p rest ih =>
    obtain ⟨hp, hrest⟩ := List.pairwise_cons.1 hl
    rw [List.filter_cons]
    by_cases hvp : compare v p.1 = .eq
    · cases keep p.1 with
      | true =>
        left
        rw [if_pos rfl, countIn_of_eq hvp, countIn_of_eq hvp]
      | false =>
        right
        rw [if_neg Bool.false_ne_true]
        exact countIn_of_precedes hvp fun q hq => hp q (List.mem_filter.1 hq).1
    · have hsame : countIn (if keep p.1 then p :: rest.filter fun p => keep p.1
          else rest.filter fun p => keep p.1) v = countIn (rest.filter fun p => keep p.1) v := by
        cases keep p.1 with
        | true => exact countIn_of_ne hvp
        | false => rfl
      rw [hsame, countIn_of_ne hvp]
      exact ih hrest

/-! ### Entries -/

theorem entry_eq_of_compare (hl : l.Pairwise fun p q => Precedes p.1 q.1) {q : α × Nat} (hp : p ∈ l)
    (hq : q ∈ l) (hpq : compare p.1 q.1 = .eq) : p = q := by
  induction l with
  | nil => cases hp
  | cons r rest ih =>
    obtain ⟨hr, hrest⟩ := List.pairwise_cons.1 hl
    rcases List.mem_cons.1 hp with rfl | hp'
    · rcases List.mem_cons.1 hq with rfl | hq'
      · rfl
      · have hlt : compare p.1 q.1 = .lt := hr q hq'
        rw [hlt] at hpq
        cases hpq
    · rcases List.mem_cons.1 hq with rfl | hq'
      · have hlt : compare q.1 p.1 = .lt := hr p hp'
        rw [Std.OrientedCmp.eq_symm hpq] at hlt
        cases hlt
      · exact ih hrest hp' hq'

theorem countIn_of_mem (hl : l.Pairwise fun p q => Precedes p.1 q.1) (hp : p ∈ l) :
    countIn l p.1 = p.2 := by
  cases hfind : l.find? fun q => compare p.1 q.1 == .eq with
  | none =>
    have hne := List.find?_eq_none.1 hfind p hp
    exact absurd (beq_iff_eq.2 Std.ReflOrd.compare_self) hne
  | some q =>
    have hpq : compare p.1 q.1 = .eq := by simpa using List.find?_some hfind
    obtain rfl := entry_eq_of_compare hl hp (List.mem_of_find?_eq_some hfind) hpq
    rw [countIn, hfind]
    rfl

theorem countIn_pos_iff (hl : l.Pairwise fun p q => Precedes p.1 q.1) (hpos : ∀ p ∈ l, 0 < p.2)
    (v : α) : 0 < countIn l v ↔ ∃ p ∈ l, compare v p.1 = .eq := by
  constructor
  · intro hcount
    by_contra hnone
    have hzero : countIn l v = 0 := countIn_eq_zero fun p hp hvp => hnone ⟨p, hp, hvp⟩
    omega
  · rintro ⟨p, hp, hvp⟩
    rw [countIn_congr hvp, countIn_of_mem hl hp]
    exact hpos p hp

theorem total_eq_foldr (hl : l.Pairwise fun p q => Precedes p.1 q.1) :
    total l = (l.map (·.1)).foldr (fun v n => countIn l v + n) 0 := by
  rw [List.foldr_map]
  unfold total
  apply List.foldr_ext
  intro p hp n
  rw [countIn_of_mem hl hp]

/-- **Fewer elements are listed** if and only if an element is counted less often. -/
theorem length_filter_ne_iff (hl : l.Pairwise fun p q => Precedes p.1 q.1)
    (hpos : ∀ p ∈ l, 0 < p.2) (keep : α → Bool) :
    (l.filter fun p => keep p.1).length ≠ l.length ↔
      ∃ v, countIn (l.filter fun p => keep p.1) v < countIn l v := by
  constructor
  · intro hlength
    obtain ⟨p, hp, hdropped⟩ : ∃ p ∈ l, keep p.1 = false := by
      by_contra hall
      apply hlength
      rw [List.length_filter_eq_length_iff]
      intro p hp
      by_contra hdropped
      exact hall ⟨p, hp, Bool.eq_false_iff.2 hdropped⟩
    have hzero : countIn (l.filter fun p => keep p.1) p.1 = 0 := by
      apply countIn_eq_zero
      intro q hq hpq
      obtain ⟨hql, hkept⟩ := List.mem_filter.1 hq
      obtain rfl := entry_eq_of_compare hl hp hql hpq
      rw [hdropped] at hkept
      cases hkept
    refine ⟨p.1, ?_⟩
    rw [hzero, countIn_of_mem hl hp]
    exact hpos p hp
  · rintro ⟨v, hlt⟩ hlength
    rw [List.filter_eq_self.2 (List.length_filter_eq_length_iff.1 hlength)] at hlt
    exact Nat.lt_irrefl _ hlt

/-! ### Bags -/

variable (b : CountedBag α)

theorem recounts_self (v : α) : b.Recounts v (b.count v) b := by
  intro u
  by_cases hvu : compare v u = .eq
  · rw [if_pos hvu]
    exact (countIn_congr hvu b.counts).symm
  · rw [if_neg hvu]

theorem recounts_addCopies (v : α) (n : Nat) :
    b.Recounts v (b.count v + n) (b.addCopies v n).2 := by
  unfold addCopies
  by_cases hn : 0 < n
  · rw [dif_pos hn]
    exact countIn_raise b.ascending v n
  · obtain rfl : n = 0 := by omega
    rw [dif_neg hn]
    exact b.recounts_self v

theorem size_addCopies (v : α) (n : Nat) : (b.addCopies v n).2.size = b.size + n := by
  unfold addCopies
  by_cases hn : 0 < n
  · rw [dif_pos hn]
    exact total_raise v n b.counts
  · obtain rfl : n = 0 := by omega
    rw [dif_neg hn]
    rfl

/-- A removal of copies takes as many as there are, and tells whether there were any. -/
theorem removeCopies_eq (v : α) (n : Nat) :
    (b.removeCopies v n).1 = decide (0 < min n (b.count v)) ∧
      b.Recounts v (b.count v - min n (b.count v)) (b.removeCopies v n).2 ∧
      b.size = (b.removeCopies v n).2.size + min n (b.count v) := by
  unfold removeCopies
  cases hentry : b.entry? v with
  | none =>
    have hzero : b.count v = 0 := by
      rw [count, hentry]
      rfl
    have hsame := b.recounts_self v
    rw [hzero] at hsame
    simp only [hzero, Nat.min_zero, Nat.sub_zero]
    exact ⟨rfl, hsame, rfl⟩
  | some p =>
    have hcount : b.count v = p.2 := by
      rw [count, hentry]
      rfl
    have hpos : 0 < b.count v := by
      rw [hcount]
      exact b.positive p (List.mem_of_find?_eq_some hentry)
    refine ⟨?_, ?_, total_lower v n b.counts⟩
    · rw [Bool.eq_iff_iff, bne_iff_ne, decide_eq_true_iff]
      omega
    · have hless : b.count v - min n (b.count v) = b.count v - n := by omega
      rw [hless]
      exact countIn_lower b.ascending v n

end CountedBag

/-- **A bag is a proper tally.** -/
theorem Tally.proper_ofBag [Ord α] [Std.TransOrd α] (b : CountedBag α) : (ofBag b).Proper where
  unbroken := rfl
  positive := b.positive
  listed v := by
    show 0 < CountedBag.countIn b.counts v ↔ ∃ u ∈ b.counts.map (·.1), compare v u = .eq
    rw [CountedBag.countIn_pos_iff b.ascending b.positive]
    simp
  ascending := List.pairwise_map.2 b.ascending
  contains v := by
    show (b.counts.find? fun p => compare v p.1 == .eq).isSome = true ↔
      0 < CountedBag.countIn b.counts v
    rw [CountedBag.countIn_pos_iff b.ascending b.positive, List.find?_isSome]
    simp
  size := CountedBag.total_eq_foldr b.ascending
  retain keep := by
    show ((b.counts.filter fun p => keep p.1).length != b.counts.length) = true ↔
      ∃ v, CountedBag.countIn (b.counts.filter fun p => keep p.1) v <
        CountedBag.countIn b.counts v
    rw [bne_iff_ne]
    exact CountedBag.length_filter_ne_iff b.ascending b.positive keep

end WatchedContainers
