import WatchedContainers.Proofs.Mirror

/-!
# Regular mutations

A mutation is reported as it was proposed, or not at all if nothing was found to be removed.
Additions never make a container smaller and removals never make it larger, whatever the container
does with equal elements.  This holds of commands at the container, at a window of it, at a range
and at an iterator.

* `Standard.size_le_add`, `Standard.size_remove_le` and others: sizes under the operations of a
  container.
* `Mutation.Regular`: what every mutation of a command keeps to.
* `Standard.regular_of_mutation`: **every mutation of a command is regular**.
-/

namespace WatchedContainers

variable {C κ α : Type}

/-! ### Trends -/

def Trend.Admits (change : Int) : Trend → Prop
  | grows => 0 ≤ change
  | shrinks => change ≤ 0
  | preserves => change = 0

namespace Kind

theorem trend_eq (k : Kind) :
    k.trend =
      match k with
      | add | addIndexed | addCopies | addIterated | addAll | addAllIndexed => .grows
      | setIndexed | setIterated => .preserves
      | _ => .shrinks := by
  cases k <;> decide

/-- The kinds that grow admit every size that is not below the one before. -/
theorem admits_grows {k : Kind} (hk : k.trend = .grows) {m n : Nat} (h : m ≤ n) :
    k.trend.Admits ((n : Int) - m) := by
  rw [hk]
  change (0 : Int) ≤ _
  omega

theorem admits_shrinks {k : Kind} (hk : k.trend = .shrinks) {m n : Nat} (h : n ≤ m) :
    k.trend.Admits ((n : Int) - m) := by
  rw [hk]
  change _ ≤ (0 : Int)
  omega

theorem admits_preserves {k : Kind} (hk : k.trend = .preserves) {m n : Nat} (h : n = m) :
    k.trend.Admits ((n : Int) - m) := by
  rw [hk]
  change _ = (0 : Int)
  omega

end Kind

/-! ### Batches element by element -/

theorem size_le_addEach {size : C → Nat} {add : C → α → Bool × C}
    (h : ∀ c v, size c ≤ size (add c v).2) (c : C) (vs : List α) :
    size c ≤ size (addEach add c vs).2 := by
  unfold addEach
  generalize false = changed
  induction vs generalizing c changed with
  | nil => exact Nat.le_refl _
  | cons v vs ih => exact Nat.le_trans (h c v) (ih _ _)

/-! ### Sorted sets -/

theorem SortedSet.length_le_place [Ord α] (v : α) (l : List α) : l.length ≤ (place v l).length := by
  induction l with
  | nil => exact Nat.zero_le _
  | cons a rest ih =>
    unfold place
    split
    · exact Nat.le_succ _
    · exact Nat.le_refl _
    · exact Nat.succ_le_succ ih

/-! ### Counted bags -/

namespace CountedBag

variable [Ord α]

abbrev total (l : List (α × Nat)) : Nat := l.foldr (fun e n => e.2 + n) 0

omit [Ord α] in
theorem total_cons (p : α × Nat) (l : List (α × Nat)) : total (p :: l) = p.2 + total l := rfl

theorem total_raise (v : α) (n : Nat) (l : List (α × Nat)) :
    total (raise v n l) = total l + n := by
  induction l with
  | nil => exact Nat.add_comm ..
  | cons p rest ih =>
    unfold raise
    split
    · rw [total_cons, Nat.add_comm]
    · rw [total_cons, total_cons, Nat.add_right_comm]
    · rw [total_cons, total_cons, ih, Nat.add_assoc]

theorem total_lower_le (v : α) (n : Nat) (l : List (α × Nat)) : total (lower v n l) ≤ total l := by
  induction l with
  | nil => exact Nat.le_refl _
  | cons p rest ih =>
    unfold lower
    split
    · split
      · exact Nat.le_add_left ..
      · exact Nat.add_le_add_right (Nat.sub_le ..) _
    · exact Nat.add_le_add_left ih _

omit [Ord α] in
theorem total_filter_le (keep : α × Nat → Bool) (l : List (α × Nat)) :
    total (l.filter keep) ≤ total l := by
  induction l with
  | nil => exact Nat.le_refl _
  | cons p rest ih =>
    rw [List.filter_cons]
    split
    · exact Nat.add_le_add_left ih _
    · exact Nat.le_trans ih (Nat.le_add_left ..)

theorem size_le_addCopies [Std.TransOrd α] (b : CountedBag α) (v : α) (n : Nat) :
    b.size ≤ (b.addCopies v n).2.size := by
  unfold addCopies
  split
  next hn =>
    change _ ≤ total (raise v n b.counts)
    rw [total_raise]
    exact Nat.le_add_right ..
  next => exact Nat.le_refl _

theorem size_removeCopies_le (b : CountedBag α) (v : α) (n : Nat) :
    (b.removeCopies v n).2.size ≤ b.size := by
  unfold removeCopies
  split
  · exact total_lower_le ..
  · exact Nat.le_refl _

theorem size_remove_le (b : CountedBag α) (v : α) : (b.remove v).2.size ≤ b.size := by
  unfold remove
  split
  · exact total_lower_le ..
  · exact Nat.le_refl _

end CountedBag

/-! ### Operations of every container -/

namespace Standard

theorem size_le_add (k : Standard α C κ) (c : C) (v : α) :
    k.size c ≤ k.size (let _ := k.collection; (Collection.add c v).2) := by
  cases k with
  | sequence => exact (List.sublist_append_left ..).length_le
  | queue => exact (List.sublist_append_left ..).length_le
  | uniqueSet =>
    change c.items.length ≤ (c.insert v).2.items.length
    unfold UniqueSet.insert
    split
    · exact (List.sublist_append_left ..).length_le
    · exact Nat.le_refl _
  | sortedSet => exact SortedSet.length_le_place v c.items
  | bag =>
    change CountedBag.total c.counts ≤ CountedBag.total (CountedBag.raise v 1 c.counts)
    rw [CountedBag.total_raise]
    exact Nat.le_add_right ..

theorem size_le_addAll (k : Standard α C κ) (c : C) (vs : List α) :
    k.size c ≤ k.size (let _ := k.collection; (Collection.addAll c vs).2) := by
  have hadd := k.size_le_add
  cases k with
  | sequence => exact (List.sublist_append_left ..).length_le
  | queue => exact size_le_addEach hadd c vs
  | uniqueSet => exact size_le_addEach hadd c vs
  | sortedSet => exact size_le_addEach hadd c vs
  | bag => exact size_le_addEach hadd c vs

theorem size_remove_le (k : Standard α C κ) (c : C) (v : α) :
    k.size (let _ := k.collection; (Collection.remove c v).2) ≤ k.size c := by
  cases k with
  | sequence =>
    change (c.remove v).2.items.length ≤ c.items.length
    unfold Sequence.remove
    split
    · exact List.length_eraseIdx_le ..
    · exact Nat.le_refl _
  | queue =>
    change (c.remove v).2.items.length ≤ c.items.length
    unfold Queue.remove
    split
    · exact List.length_eraseIdx_le ..
    · exact Nat.le_refl _
  | uniqueSet => exact List.length_filter_le ..
  | sortedSet => exact List.length_filter_le ..
  | bag => exact c.size_remove_le v

theorem size_retain_le (k : Standard α C κ) (c : C) (keep : α → Bool) :
    k.size (let _ := k.collection; (Collection.retain c keep).2) ≤ k.size c := by
  cases k with
  | sequence => exact List.length_filter_le ..
  | queue => exact List.length_filter_le ..
  | uniqueSet => exact List.length_filter_le ..
  | sortedSet => exact List.length_filter_le ..
  | bag => exact CountedBag.total_filter_le ..

theorem size_clear (k : Standard α C κ) (c : C) :
    k.size (let _ := k.collection; Collection.clear c) = 0 := by
  cases k <;> rfl

end Standard

/-! ### Regular mutations -/

def Command.mayMiss : Command α → Bool
  | .remove _ | .removeNext => true
  | _ => false

/-- A mutation of a command is reported as it was proposed.  It goes unreported only if nothing was
found to be removed, and then it changes nothing.  The size changes as the kind says. -/
structure Mutation.Regular (k : Standard α C κ) (command : Command α) (c : C)
    (m : Mutation C α) : Prop where
  completes : m.completion.modification = m.proposal
  absent_iff : m.completion.absent?.isSome ↔ command.mayMiss ∧ m.response = command.refusal
  unchanged : m.completion.absent?.isSome → m.container = c
  trend : m.proposal.kind.trend.Admits ((k.size m.container : Int) - k.size c)

namespace Mutation.Regular

variable {k : Standard α C κ} {command : Command α} {c : C} {m : Mutation C α}

theorem of_certain (hcompletes : m.completion.modification = m.proposal)
    (hreported : m.completion.absent? = none) (hcertain : command.mayMiss = false)
    (htrend : m.proposal.kind.trend.Admits ((k.size m.container : Int) - k.size c)) :
    m.Regular k command c where
  completes := hcompletes
  absent_iff := by simp [hreported, hcertain]
  unchanged h := by simp [hreported] at h
  trend := htrend

end Mutation.Regular

/-! ### At a container -/

theorem Standard.regular_of_collection (k : Standard α C κ) (command : Command α) {c : C}
    {f : C → Mutation C α}
    (hf : (let _ := k.collection; let _ := k.equality; Collection.mutation? command) = some f) :
    (f c).Regular k command c := by
  cases command with
  | add v =>
    obtain rfl := Option.some.inj hf
    exact .of_certain rfl rfl rfl (Kind.admits_grows (Kind.trend_eq _) (k.size_le_add c v))
  | addAll vs =>
    obtain rfl := Option.some.inj hf
    exact .of_certain rfl rfl rfl (Kind.admits_grows (Kind.trend_eq _) (k.size_le_addAll c vs))
  | remove v =>
    obtain rfl := Option.some.inj hf
    refine ⟨rfl, ⟨fun h => ⟨rfl, ?_⟩, fun h => ?_⟩,
      fun h => k.remove_of_none (Completion.removed_of_absent h),
      Kind.admits_shrinks (Kind.trend_eq _) (k.size_remove_le c v)⟩
    · simp only [Completion.removed_of_absent h]
      rfl
    · have hflag : (let _ := k.collection; (Collection.remove c v).1).isSome = false :=
        (Response.flag.injEq ..).mp h.2
      simp only [Option.isSome_eq_false_iff, Option.isNone_iff_eq_none] at hflag
      simp only [hflag]
      rfl
  | removeAll | retainAll =>
    obtain rfl := Option.some.inj hf
    exact .of_certain rfl rfl rfl (Kind.admits_shrinks (Kind.trend_eq _) (k.size_retain_le c _))
  | clear =>
    obtain rfl := Option.some.inj hf
    refine .of_certain rfl rfl rfl (Kind.admits_shrinks (Kind.trend_eq _) ?_)
    exact Nat.le_trans (Nat.le_of_eq (k.size_clear c)) (Nat.zero_le _)
  | _ => simp [Collection.mutation?] at hf

theorem Queue.regular_of_buffered [BEq α] {command : Command α} {q : Queue α}
    {f : Queue α → Mutation (Queue α) α} (hf : Buffered.mutation? command = some f) :
    (f q).Regular .queue command q := by
  cases command with
  | removeNext =>
    have hmirrored := mirrored_of_buffered (q := q) hf
    obtain rfl := Option.some.inj hf
    obtain ⟨items⟩ := q
    refine ⟨rfl, ?_, hmirrored.absent, Kind.admits_shrinks (Kind.trend_eq _) ?_⟩
    · cases items <;>
        simp [Buffered.removeNext, Completion.absent?, Command.mayMiss, Command.refusal]
    · change items.tail.length ≤ items.length
      exact (List.tail_sublist items).length_le
  | _ => simp [Buffered.mutation?] at hf

theorem CountedBag.regular_of_counted [BEq α] [Ord α] [Std.TransOrd α] {command : Command α}
    {b : CountedBag α} {f : CountedBag α → Mutation (CountedBag α) α}
    (hf : Counted.mutation? command = some f) : (f b).Regular .bag command b := by
  cases command with
  | addCopies v n =>
    obtain rfl := Option.some.inj hf
    exact .of_certain rfl rfl rfl (Kind.admits_grows (Kind.trend_eq _) (b.size_le_addCopies v n))
  | removeCopies v n =>
    obtain rfl := Option.some.inj hf
    exact .of_certain rfl rfl rfl (Kind.admits_shrinks (Kind.trend_eq _)
      (b.size_removeCopies_le v n))
  | _ => simp [Counted.mutation?] at hf

/-! ### At a sequence and its windows -/

namespace Sequence

variable [BEq α] {command : Command α} {s : Sequence α} {m : Mutation (Sequence α) α}
  {f : Sequence α → Except Error (Mutation (Sequence α) α)}

theorem regular_of_mutation (hf : mutation? command = some f) (hm : f s = .ok m) :
    m.Regular .sequence command s := by
  cases command with
  | addAt i v =>
    obtain rfl := Option.some.inj hf
    by_cases hi : i ≤ s.items.length
    · simp only [if_pos hi] at hm
      obtain rfl := Except.ok.inj hm
      refine .of_certain rfl rfl rfl (Kind.admits_grows (Kind.trend_eq _) ?_)
      change s.items.length ≤ (s.items.insertIdx i v).length
      rw [List.length_insertIdx_of_le_length hi]
      exact Nat.le_succ _
    · simp [if_neg hi] at hm
  | addAllAt i vs =>
    obtain rfl := Option.some.inj hf
    by_cases hi : i ≤ s.items.length
    · simp only [if_pos hi] at hm
      obtain rfl := Except.ok.inj hm
      refine .of_certain rfl rfl rfl (Kind.admits_grows (Kind.trend_eq _) ?_)
      change s.items.length ≤ (s.items.take i ++ vs ++ s.items.drop i).length
      simp only [List.length_append, List.length_take, List.length_drop]
      omega
    · simp [if_neg hi] at hm
  | removeAt i =>
    obtain rfl := Option.some.inj hf
    cases hp : s.items[i]? with
    | none => simp [hp] at hm
    | some p =>
      simp only [hp] at hm
      obtain rfl := Except.ok.inj hm
      exact .of_certain rfl rfl rfl (Kind.admits_shrinks (Kind.trend_eq _)
        (List.length_eraseIdx_le ..))
  | set i v =>
    obtain rfl := Option.some.inj hf
    cases hp : s.items[i]? with
    | none => simp [hp] at hm
    | some p =>
      simp only [hp] at hm
      obtain rfl := Except.ok.inj hm
      exact .of_certain rfl rfl rfl (Kind.admits_preserves (Kind.trend_eq _) List.length_set)
  | add | addAll | remove | removeAll | retainAll | clear =>
    have hf' := (mutation?_of_not_positional rfl).symm.trans hf
    obtain ⟨g, hg, rfl⟩ := Option.map_eq_some_iff.1 hf'
    obtain rfl := Except.ok.inj hm
    exact Standard.sequence.regular_of_collection _ hg
  | _ => simp [mutation?, Collection.mutation?] at hf

theorem regular_within {start tail : Nat} (hin : start + tail ≤ s.items.length)
    (h : ∀ m₀, f ⟨s.window start tail⟩ = .ok m₀ →
      m₀.Regular .sequence command ⟨s.window start tail⟩)
    (hm : within start tail f s = .ok m) : m.Regular .sequence command s := by
  obtain ⟨m₀, hm₀, rfl⟩ := exists_of_within hm
  have hregular := h m₀ hm₀
  refine ⟨hregular.completes, hregular.absent_iff, fun habsent => ?_, ?_⟩
  · change s.splice start tail m₀.container.items = s
    rw [hregular.unchanged habsent]
    obtain ⟨pre, mid, suf, rfl, rfl, rfl⟩ := exists_middle s start tail hin
    rw [window_middle, splice_middle]
  · -- what is outside the window counts for nothing in the difference
    have hbefore := s.length_window start tail
    have hafter := length_splice (s := s) hin m₀.container.items
    have hchange : ((s.splice start tail m₀.container.items).items.length : Int) - s.items.length =
        m₀.container.items.length - (s.window start tail).length := by
      omega
    have htrend := hregular.trend
    change m₀.proposal.kind.trend.Admits
      ((m₀.container.items.length : Int) - (s.window start tail).length) at htrend
    change m₀.proposal.kind.trend.Admits
      (((s.splice start tail m₀.container.items).items.length : Int) - s.items.length)
    rwa [hchange]

end Sequence

theorem ListIterator.regular_of_mutation [BEq α] {command : Command α} {cursor : Nat}
    {last : Option Nat} {s : Sequence α} {m : Mutation (Sequence α) α}
    {f : Sequence α → Except Error (Mutation (Sequence α) α)}
    (hf : mutation? cursor last command = some f) (hm : f s = .ok m) :
    m.Regular .sequence command s := by
  cases command with
  | removeLast =>
    obtain rfl := Option.some.inj hf
    cases hl : last.bind fun i => s.items[i]?.map (i, ·) with
    | none => simp [hl] at hm
    | some p =>
      simp only [hl] at hm
      obtain rfl := Except.ok.inj hm
      exact .of_certain rfl rfl rfl (Kind.admits_shrinks (Kind.trend_eq _)
        (List.length_eraseIdx_le ..))
  | setLast v =>
    obtain rfl := Option.some.inj hf
    cases hl : last.bind fun i => s.items[i]?.map (i, ·) with
    | none => simp [hl] at hm
    | some p =>
      simp only [hl] at hm
      obtain rfl := Except.ok.inj hm
      exact .of_certain rfl rfl rfl (Kind.admits_preserves (Kind.trend_eq _) List.length_set)
  | insert v =>
    obtain rfl := Option.some.inj hf
    obtain rfl := Except.ok.inj hm
    refine .of_certain rfl rfl rfl (Kind.admits_grows (Kind.trend_eq _) ?_)
    change s.items.length ≤ (s.items.insertIdx cursor v).length
    rw [List.length_insertIdx]
    split
    · exact Nat.le_succ _
    · exact Nat.le_refl _
  | _ => simp [mutation?] at hf

/-! ### At a range of a sorted set -/

theorem SortedSet.regular_of_range [BEq α] [Ord α] [Std.TransOrd α] {b : Bounds α}
    {command : Command α} {s : SortedSet α} {m : Mutation (SortedSet α) α}
    {f : SortedSet α → Except Error (Mutation (SortedSet α) α)}
    (hf : rangeMutation? b command = some f) (hm : f s = .ok m) :
    m.Regular .sortedSet command s := by
  cases command with
  | add v =>
    obtain rfl := Option.some.inj hf
    simp only at hm
    split at hm
    · obtain rfl := Except.ok.inj hm
      exact Standard.sortedSet.regular_of_collection (.add v) rfl
    · simp at hm
  | addAll vs =>
    obtain rfl := Option.some.inj hf
    simp only at hm
    split at hm
    · obtain rfl := Except.ok.inj hm
      exact Standard.sortedSet.regular_of_collection (.addAll vs) rfl
    · simp at hm
  | remove v =>
    obtain rfl := Option.some.inj hf
    obtain rfl := Except.ok.inj hm
    split
    · exact Standard.sortedSet.regular_of_collection (.remove v) rfl
    · exact ⟨rfl, ⟨fun _ => ⟨rfl, rfl⟩, fun _ => rfl⟩, fun _ => rfl,
        Kind.admits_shrinks (Kind.trend_eq _) (Nat.le_refl _)⟩
  | removeAll | retainAll | clear =>
    obtain rfl := Option.some.inj hf
    obtain rfl := Except.ok.inj hm
    exact .of_certain rfl rfl rfl (Kind.admits_shrinks (Kind.trend_eq _)
      (List.length_filter_le ..))
  | _ => simp [rangeMutation?] at hf

/-! ### At whatever is in front -/

namespace Standard

variable {k : Standard α C κ} {command : Command α} {c : C} {frames : List (Frame κ α)}
  {f : C → Except Error (Mutation C α)} {m : Mutation C α}

theorem regular_of_rootMutation (hf : k.rootMutation? command = some f) (hm : f c = .ok m) :
    m.Regular k command c := by
  cases k with
  | sequence => exact Sequence.regular_of_mutation hf hm
  | queue =>
    obtain ⟨g, hg, rfl⟩ := Option.map_eq_some_iff.1 hf
    obtain rfl := Except.ok.inj hm
    rcases Option.or_eq_some_iff.1 hg with hg | ⟨-, hg⟩
    · exact queue.regular_of_collection _ hg
    · exact Queue.regular_of_buffered hg
  | uniqueSet =>
    obtain ⟨g, hg, rfl⟩ := Option.map_eq_some_iff.1 hf
    obtain rfl := Except.ok.inj hm
    exact uniqueSet.regular_of_collection _ hg
  | sortedSet =>
    obtain ⟨g, hg, rfl⟩ := Option.map_eq_some_iff.1 hf
    obtain rfl := Except.ok.inj hm
    exact sortedSet.regular_of_collection _ hg
  | bag =>
    obtain ⟨g, hg, rfl⟩ := Option.map_eq_some_iff.1 hf
    obtain rfl := Except.ok.inj hm
    rcases Option.or_eq_some_iff.1 hg with hg | ⟨-, hg⟩
    · exact bag.regular_of_collection _ hg
    · exact CountedBag.regular_of_counted hg

/-- A removal at an iterator takes out the element that it proposed to remove. -/
theorem InStep.regular {it : Iteration Unit κ α} (h : k.InStep c it)
    (hf : k.iterationMutation? it.current command = some f) (hm : f c = .ok m) :
    m.Regular k command c := by
  cases command with
  | removeLast =>
    obtain rfl := Option.some.inj hf
    cases hc : it.current with
    | none => simp [hc] at hm
    | some p =>
      obtain ⟨i, v⟩ := p
      simp only [hc, Except.ok.injEq] at hm
      subst hm
      have hw := h.walks
      rw [hc] at hw
      obtain ⟨⟨herase, -⟩, hsize, -⟩ := hw.erase
      refine .of_certain ?_ rfl rfl (Kind.admits_shrinks (Kind.trend_eq _) ?_)
      · simp only [herase, Option.getD_some]
        rfl
      · exact hsize ▸ Nat.le_succ _
  | _ => simp [iterationMutation?] at hf

/-- **Every mutation of a command is regular**, whatever is open. -/
theorem regular_of_mutation (h : k.Fits c frames) (hf : k.mutation? frames command = some f)
    (hm : f c = .ok m) : m.Regular k command c := by
  cases frames with
  | nil => exact regular_of_rootMutation (k := k) hf hm
  | cons g rest =>
    cases g with
    | subList v =>
      cases k with
      | sequence =>
        obtain ⟨g, hg, rfl⟩ := Option.map_eq_some_iff.1 hf
        exact Sequence.regular_within h.inside (fun _ => Sequence.regular_of_mutation hg) hm
      | queue | uniqueSet | sortedSet | bag => simp [mutation?] at hf
    | sortedView v =>
      cases k with
      | sortedSet => exact SortedSet.regular_of_range hf hm
      | sequence | queue | uniqueSet | bag => simp [mutation?] at hf
    | iteration it ref =>
      have hit : k.InStep c it := h.front
      cases k <;> exact hit.regular hf hm
    | listIterator it ref =>
      cases k with
      | sequence =>
        obtain ⟨g, hg, rfl⟩ := Option.map_eq_some_iff.1 hf
        exact Sequence.regular_within h.inside (fun _ => ListIterator.regular_of_mutation hg) hm
      | queue | uniqueSet | sortedSet | bag => simp [mutation?] at hf

end Standard

end WatchedContainers
