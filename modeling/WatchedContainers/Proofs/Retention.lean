import Mathlib.Data.List.Basic
import WatchedContainers.Element.Floating
import WatchedContainers.Proofs.Elementwise
import WatchedContainers.Proofs.Restriction
import WatchedContainers.Watched.Retention

/-!
# Filters of a view

A view is filtered by a walk that removes elements from what it walks over: down the positions of a
segment, along a cursor over a range of a sorted set.  Either walk comes to the filter of the view's
elements, and asks about each of them once.

* `ActsAsSequence.retain_middle`: a segment is filtered in its place, whatever list it is a segment
  of.
* `ActsAsSequence.retainM_asking`, `SubRange.retainM_asking`: **each element is asked about once**,
  from the last to the first in a segment and in ascending order in a range.
* `retain_filters`: **filters of views**, and how two filters by the same batch split a view.
-/

namespace WatchedContainers

variable {m : Type → Type} [Monad m] [LawfulMonad m] {C α : Type}

/-! ### Two filters -/

theorem Operation.Splits.of_filter {S : Type} {values : S → List α} {test : α → Bool}
    {retain remove : Operation S α Bool} {s : S} {retained removed : Plan S α Bool}
    (hretain : retain s = .ok retained) (hremove : remove s = .ok removed)
    (hretained : values retained.commit.state = (values s).filter test)
    (hremoved : values removed.commit.state = (values s).filter fun x => !test x)
    (hflag : retained.commit.result = .ok ((values s).any fun x => !test x))
    (hflag' : removed.commit.result = .ok ((values s).any fun x => !!test x)) :
    Splits values test retain remove s := by
  have hany : ∀ p : α → Bool, (values s).any p = !((values s).filter p).isEmpty := by
    intro p
    rw [Bool.eq_iff_iff]
    simp
  refine ⟨retained, removed, hretain, hremove, ?_, ?_, ?_⟩
  · rw [List.partition_eq_filter_filter, hretained, hremoved]
    rfl
  · rw [hflag, hremoved, hany]
  · rw [hflag', hretained, hany]
    simp

/-! ### Segments -/

def Segment.map {D : Type} (f : C → D) (s : Segment C) : Segment D := ⟨f s.list, s.start, s.tail⟩

namespace ActsAsSequence

variable [BEq α] [Collection C α] [Positional C α] {view : C → Sequence α}

theorem lt_size_of_get? (h : ActsAsSequence view) {c : C} {i : Nat} {v : α}
    (hv : Positional.get? c i = some v) : i < Collection.size c := by
  rw [h.get?, Sequence.get?_eq] at hv
  rw [h.size_eq_length]
  exact (List.getElem?_eq_some_iff.1 hv).1

theorem get?_removeAt_of_lt (h : ActsAsSequence view) {c : C} {i k : Nat}
    (hk : k < Collection.size c) (hi : i < k) :
    Positional.get? (Positional.removeAt c k).2 i = Positional.get? c i := by
  rw [h.get?, h.view_removeAt hk, h.get?, Sequence.get?_eq, Sequence.get?_eq,
    List.getElem?_eraseIdx_of_lt hi]

/-! #### Reading -/

theorem length_map (h : ActsAsSequence view) (s : Segment C) :
    (s.map view).length = s.length := by
  rw [Segment.length, Segment.length, h.size]
  rfl

theorem values_map (h : ActsAsSequence view) (s : Segment C) :
    (s.map view).values = s.values := by
  rw [Segment.values, Segment.values, h.length_map]
  exact List.filterMap_congr fun i _ => (h.get? s.list (s.start + i)).symm

theorem values_middle (h : ActsAsSequence view) {c : C} {pre mid suf : List α}
    (hc : view c = ⟨pre ++ mid ++ suf⟩) :
    (⟨c, pre.length, suf.length⟩ : Segment C).values = mid := by
  rw [← h.values_map, Segment.map, hc]
  exact Segment.values_around pre mid suf

/-! #### Filtering -/

/-- Going down by position does the same to a list and to the sequence that it is seen as. -/
theorem sweep_map (h : ActsAsSequence view) (keep : α → Bool) (c : C) (start count : Nat) :
    (Segment.sweep keep c start count).map id view =
      Segment.sweep keep (view c) start count := by
  induction count generalizing c with
  | zero => rfl
  | succ count ih =>
    unfold Segment.sweep
    rw [← h.get?]
    cases hv : Positional.get? c (start + count) with
    | none => exact ih c
    | some v =>
      by_cases hk : keep v
      · simp only [if_pos hk]
        exact ih c
      · have hrest := ih (Positional.removeAt c (start + count)).2
        rw [h.view_removeAt (h.lt_size_of_get? hv)] at hrest
        have hlists := congrArg Prod.snd hrest
        simp only [if_neg hk]
        exact Prod.ext rfl hlists

/-- **A segment is filtered in its place.** -/
theorem retain_middle (h : ActsAsSequence view) {c : C} {pre mid suf : List α}
    (hc : view c = ⟨pre ++ mid ++ suf⟩) (keep : α → Bool) :
    ((⟨c, pre.length, suf.length⟩ : Segment C).retain keep).map id view =
      (mid.any fun x => !keep x, ⟨pre ++ mid.filter keep ++ suf⟩) := by
  rw [Segment.retain, h.sweep_map, ← h.length_map, Segment.map, hc]
  refine (Segment.retain_around pre mid suf keep).trans ?_
  rw [SubRange.length_filter_bne]

/-- Going down by position asks about each element that it passes, and about no other one. -/
theorem sweepM_asking (h : ActsAsSequence view) (act : α → m Unit) (keep : α → Bool) (c : C)
    (start count : Nat) :
    Segment.sweepM (asking act keep) c start count = do
      ((List.range count).filterMap fun i => Positional.get? c (start + i)).reverse.forM act
      return Segment.sweep keep c start count := by
  induction count generalizing c with
  | zero => simp [Segment.sweepM, Segment.sweep]
  | succ count ih =>
    rw [List.range_succ, List.filterMap_append, List.reverse_append, Segment.sweepM, Segment.sweep]
    cases hv : Positional.get? c (start + count) with
    | none => simp [hv, ih c]
    | some v =>
      by_cases hk : keep v
      · simp [hv, hk, asking, ih c]
      · have hlast := h.lt_size_of_get? hv
        -- what is still to be asked about stands in front of the removed element
        have hrest : ((List.range count).filterMap fun i =>
            Positional.get? (Positional.removeAt c (start + count)).2 (start + i)) =
              (List.range count).filterMap fun i => Positional.get? c (start + i) := by
          refine List.filterMap_congr fun i hi => h.get?_removeAt_of_lt hlast ?_
          have := List.mem_range.1 hi
          omega
        simp [hv, hk, asking, ih, hrest]

/-- **Each element of a segment is asked about once**, from the last to the first. -/
theorem retainM_asking (h : ActsAsSequence view) (s : Segment C) (act : α → m Unit)
    (keep : α → Bool) :
    s.retainM (asking act keep) = do
      s.values.reverse.forM act
      return s.retain keep :=
  h.sweepM_asking act keep s.list s.start s.length

/-- **Two filters by a batch split a segment.** -/
theorem splits_middle (h : ActsAsSequence view) {c : C} {pre mid suf : List α}
    (hc : view c = ⟨pre ++ mid ++ suf⟩) (vs : List α) :
    Operation.Splits Segment.values (fun x => vs.any (· == x)) (Segment.planRetainAll vs)
      (Segment.planRemoveAll vs) (⟨c, pre.length, suf.length⟩ : Segment C) := by
  have hflag : ∀ keep : α → Bool,
      ((⟨c, pre.length, suf.length⟩ : Segment C).retain keep).1 = mid.any fun x => !keep x :=
    fun keep => congrArg Prod.fst (h.retain_middle hc keep)
  have hvalues : ∀ keep : α → Bool,
      (⟨((⟨c, pre.length, suf.length⟩ : Segment C).retain keep).2, pre.length, suf.length⟩ :
        Segment C).values = mid.filter keep :=
    fun keep => h.values_middle (congrArg Prod.snd (h.retain_middle hc keep))
  refine .of_filter rfl rfl ?_ ?_ ?_ ?_ <;> rw [h.values_middle hc]
  · exact hvalues _
  · exact hvalues _
  · exact congrArg Except.ok (hflag _)
  · exact congrArg Except.ok (hflag _)

end ActsAsSequence

/-! ### Ranges -/

namespace SubRange

variable [Ord α] [Std.TransOrd α]

theorem sweepM_asking (act : α → m Unit) (keep : α → Bool) (fuel : Nat) (cur : ResumingCursor α)
    (s : SortedSet α) (hfuel : (s.items.filter cur.rest.contains).length < fuel) :
    sweepM (asking act keep) fuel cur s = do
      (s.items.filter cur.rest.contains).forM act
      return sweep keep fuel cur s := by
  refine walk_induct keep (motive := fun fuel cur s => sweepM (asking act keep) fuel cur s = do
    (s.items.filter cur.rest.contains).forM act
    return sweep keep fuel cur s) ?_ ?_ ?_ fuel cur s hfuel
  · intro fuel cur s hl hnext
    simp [sweepM, sweep, hnext, hl]
  · intro fuel cur s v l hl hrest hk hnext ih
    simp [sweepM, sweep, hnext, hl, hk, asking, ih, hrest]
  · intro fuel cur cur' s s' v l hl hrest hk hnext hremove _ ih
    simp [sweepM, sweep, hnext, hl, hk, hremove, asking, ih, hrest]

/-- **Each element of a range is asked about once**, in ascending order. -/
theorem retainM_asking (s : SortedSet α) (b : Bounds α) (act : α → m Unit) (keep : α → Bool) :
    (⟨s, b⟩ : SubRange (SortedSet α) α).retainM (asking act keep) = do
      (s.items.filter b.contains).forM act
      return (⟨s, b⟩ : SubRange (SortedSet α) α).retain keep :=
  sweepM_asking act keep _ (s.cursorWithin b) s (Nat.lt_succ_of_le (List.length_filter_le ..))

/-- **Two filters by a batch split a range.** -/
theorem splits_within [BEq α] (s : SortedSet α) (b : Bounds α) (vs : List α) :
    Operation.Splits SubRange.values (fun x => vs.any (· == x)) (SubRange.planRetainAll vs)
      (SubRange.planRemoveAll vs) (⟨s, b⟩ : SubRange (SortedSet α) α) := by
  have hflag : ∀ keep : α → Bool, ((⟨s, b⟩ : SubRange (SortedSet α) α).retain keep).1 =
      (s.within b).any fun x => !keep x := by
    intro keep
    rw [retain_within, SortedSet.within_eq]
  have hvalues : ∀ keep : α → Bool,
      ((⟨s, b⟩ : SubRange (SortedSet α) α).retain keep).2.within b = (s.within b).filter keep := by
    intro keep
    rw [retain_within, SortedSet.within_eq, SortedSet.within_eq]
    exact congrArg (fun t => t.2.items) (SortedSet.retain_restrict keep).symm
  exact .of_filter rfl rfl (hvalues _) (hvalues _) (congrArg Except.ok (hflag _))
    (congrArg Except.ok (hflag _))

end SubRange

/-! ### The result -/

/-- **Filters of views.**

A segment of any list that does as a sequence does, whatever stands in front of it and behind it:
the elements that pass the test remain, in their order, and what stands around them is left alone.
The answer tells whether an element failed the test.  The test is asked about each element of the
segment once, from the last to the first, and about nothing else; that is so for tests that may do
anything whenever they are asked.

A range of a sorted set, whatever the bounds: the elements out of bounds and those that pass the
test remain, the answer tells whether an element within the bounds failed it, the walk comes to its
end, and the test is asked about each element within the bounds once, in ascending order.

In both cases the two filters by the same batch split the view: each element is left by one of them
and taken out by the other.  Elements need not be equal to themselves. -/
theorem retain_filters :
    (∀ {C α : Type} [BEq α] [Collection C α] [Positional C α] {view : C → Sequence α},
      ActsAsSequence view → ∀ (c : C) (pre mid suf : List α), view c = ⟨pre ++ mid ++ suf⟩ →
        let s : Segment C := ⟨c, pre.length, suf.length⟩
        s.values = mid ∧
        (∀ keep : α → Bool,
          (s.retain keep).map id view =
            (mid.any fun x => !keep x, ⟨pre ++ mid.filter keep ++ suf⟩) ∧
          ∀ {m : Type → Type} [Monad m] [LawfulMonad m] (act : α → m Unit),
            s.retainM (asking act keep) = do
              mid.reverse.forM act
              return s.retain keep) ∧
        ∀ vs : List α, Operation.Splits Segment.values (fun x => vs.any (· == x))
          (Segment.planRetainAll vs) (Segment.planRemoveAll vs) s) ∧
    ∀ {α : Type} [Ord α] [Std.TransOrd α] (s : SortedSet α) (b : Bounds α),
      let r : SubRange (SortedSet α) α := ⟨s, b⟩
      r.values = s.items.filter b.contains ∧ r.values.Pairwise (compare · · = .lt) ∧
      (∀ keep : α → Bool,
        (r.retain keep).1 = (r.values.any fun x => !keep x) ∧
        (r.retain keep).2.items = (s.items.filter fun x => !b.contains x || keep x) ∧
        SubRange.Sweeps keep (s.cursorWithin b) s (r.retain keep).1 (r.retain keep).2 ∧
        ∀ {m : Type → Type} [Monad m] [LawfulMonad m] (act : α → m Unit),
          r.retainM (asking act keep) = do
            r.values.forM act
            return r.retain keep) ∧
      ∀ [BEq α] (vs : List α), Operation.Splits SubRange.values (fun x => vs.any (· == x))
        (SubRange.planRetainAll vs) (SubRange.planRemoveAll vs) r := by
  constructor
  · intro C α _ _ _ view h c pre mid suf hc s
    have hvalues : s.values = mid := h.values_middle hc
    refine ⟨hvalues, fun keep => ⟨h.retain_middle hc keep, ?_⟩, h.splits_middle hc⟩
    intro m _ _ act
    rw [h.retainM_asking, hvalues]
  · intro α _ _ s b r
    have hvalues : r.values = s.items.filter b.contains := s.within_eq b
    refine ⟨hvalues, ?_, fun keep => ⟨?_, ?_, SubRange.sweeps_retain s b keep, ?_⟩,
      SubRange.splits_within s b⟩
    · rw [hvalues]
      exact s.ascending.filter _
    · rw [hvalues]
      exact congrArg Prod.fst (SubRange.retain_within s b keep)
    · exact congrArg (fun t => t.2.items) (SubRange.retain_within s b keep)
    · intro m _ _ act
      rw [hvalues]
      exact SubRange.retainM_asking s b act keep

/-- A segment of a list that notes each step, with values that are not numbers, and a range of a
sorted set without an upper bound.  The test writes down what it is asked about. -/
theorem retain_filters_floating :
    let view := fun l : NotedList Floating => (⟨l.items⟩ : Sequence Floating)
    let mid : List Floating := [.notANumber, .infinite true, .notANumber]
    let l : NotedList Floating := ⟨[.infinite false] ++ mid ++ [.infinite true], []⟩
    let s : Segment (NotedList Floating) := ⟨l, 1, 1⟩
    let isInfinite := fun x : Floating => x == .infinite true
    let vs : List Floating := [.notANumber, .infinite true]
    let set : SortedSet Int := (Collection.addAll SortedSet.empty [4, 2, 3, 1]).2
    let r : SubRange (SortedSet Int) Int := ⟨set, ⟨.excluded 1, .unbounded⟩⟩
    let isEven := fun x : Int => x % 2 == 0
    let writes : Floating → StateM (List Floating) Unit := fun v => modify (· ++ [v])
    let writes' : Int → StateM (List Int) Unit := fun v => modify (· ++ [v])
    ActsAsSequence view ∧ view l = ⟨[.infinite false] ++ mid ++ [.infinite true]⟩ ∧
      s.values = mid ∧
      (s.retain isInfinite).map id view =
        (true, ⟨[.infinite false, .infinite true, .infinite true]⟩) ∧
      ((s.retainM (asking writes isInfinite)).run []).2 = mid.reverse ∧
      Operation.Splits Segment.values (fun x => vs.any (· == x)) (Segment.planRetainAll vs)
        (Segment.planRemoveAll vs) s ∧
      (r.retain isEven).2.items = [1, 2, 4] ∧
      ((r.retainM (asking writes' isEven)).run []).2 = [2, 3, 4] := by
  intro view mid l s isInfinite vs set r isEven writes writes'
  obtain ⟨hsegments, hranges⟩ := retain_filters
  have hview : ActsAsSequence view := NotedList.actsAsSequence
  obtain ⟨hvalues, hretain, hsplits⟩ :=
    hsegments hview l [.infinite false] mid [.infinite true] rfl
  obtain ⟨hfiltered, hasked⟩ := hretain isInfinite
  obtain ⟨hwithin, -, hrange, -⟩ := hranges set r.bounds
  obtain ⟨-, hitems, -, hasked'⟩ := hrange isEven
  have hrun : s.retainM (asking writes isInfinite) = do
      mid.reverse.forM writes
      return s.retain isInfinite :=
    hasked writes
  have hrun' : r.retainM (asking writes' isEven) = do
      (set.items.filter r.bounds.contains).forM writes'
      return r.retain isEven :=
    hwithin ▸ hasked' writes'
  refine ⟨hview, rfl, hvalues, hfiltered, ?_, hsplits vs, hitems, ?_⟩
  · rw [hrun]
    rfl
  · rw [hrun']
    rfl

end WatchedContainers
