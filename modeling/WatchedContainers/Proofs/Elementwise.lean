import Mathlib.Data.List.Pairwise
import WatchedContainers.Container.Elementwise
import WatchedContainers.Container.Noted
import WatchedContainers.Element.SharedText
import WatchedContainers.Proofs.Outcome

/-!
# Batches element by element

A batch operation may be left to its default, which goes element by element.  It comes to the same
as an operation on the whole batch at once.

* `ActsAsSequence.insertAllAt_byDefault`, `ActsAsSequence.removeRange_byDefault`,
  `ActsAsSequence.addAll_byDefault`: the batches of any list container are those of a sequence.
* `ActsAsSequence.insertAllAt_strict`, `ActsAsSequence.removeRange_strict`: **no step of a batch is
  at a position that it is not meant for.**
* `ActsAsSet.mem_addEach`: which values a set holds after a batch.
* `byDefault_agrees`: **the defaults agree with the operations they stand in for.**
-/

namespace WatchedContainers

variable {C α : Type}

/-! ### Lists -/

namespace ActsAsSequence

variable [BEq α] [coll : Collection C α] [pos : Positional C α] {view : C → Sequence α}

theorem size_eq_length (h : ActsAsSequence view) (c : C) :
    Collection.size c = (view c).items.length :=
  h.size c

/-! #### Insertions -/

theorem view_insertAt (h : ActsAsSequence view) {c : C} {pre suf : List α} (v : α)
    (hc : view c = ⟨pre ++ suf⟩) :
    view (Positional.insertAt c pre.length v) = ⟨pre ++ [v] ++ suf⟩ := by
  have hlen : pre.length ≤ (pre ++ suf).length := by simp
  have hsize : Collection.size c = (pre ++ suf).length := by rw [h.size_eq_length, hc]
  rw [h.insertAt c _ v (by omega), hc, Sequence.insertAt_eq,
    insertIdx_eq_take_append_drop _ _ _ hlen, List.take_left, List.drop_left]
  simp

/-- Values that are inserted one after the other at rising positions stand in their order. -/
theorem view_insertEach (h : ActsAsSequence view) {c : C} {pre suf : List α} (vs : List α)
    (hc : view c = ⟨pre ++ suf⟩) :
    view (insertEach Positional.insertAt c pre.length vs) = ⟨pre ++ vs ++ suf⟩ := by
  induction vs generalizing c pre with
  | nil => simp [insertEach, hc]
  | cons v vs ih =>
    have hnext := ih (h.view_insertAt v hc)
    rw [List.length_append, List.length_singleton] at hnext
    rw [insertEach, hnext]
    simp

theorem insertAllAt_byDefault (h : ActsAsSequence view) {c : C} {i : Nat} (vs : List α)
    (hi : i ≤ Collection.size c) :
    (pos.byDefault.insertAllAt c i vs).map id view = Positional.insertAllAt (view c) i vs := by
  have hlen : ((view c).items.take i).length = i :=
    List.length_take_of_le (h.size_eq_length c ▸ hi)
  have hc : view c = ⟨(view c).items.take i ++ (view c).items.drop i⟩ := by
    rw [List.take_append_drop]
  have hall := h.view_insertEach vs hc
  rw [hlen] at hall
  exact Prod.ext rfl hall

theorem size_insertAt (h : ActsAsSequence view) {c : C} {i : Nat} (v : α)
    (hi : i ≤ Collection.size c) :
    Collection.size (Positional.insertAt c i v) = Collection.size c + 1 := by
  rw [h.size, h.insertAt c i v hi, h.size]
  exact List.length_insertIdx_of_le_length (h.size_eq_length c ▸ hi) v

theorem insertEach_strict (h : ActsAsSequence view) {c : C} {i : Nat} (vs : List α)
    (hi : i ≤ Collection.size c) :
    insertEach pos.strict.insertAt (some c) i vs = some (insertEach pos.insertAt c i vs) := by
  induction vs generalizing c i with
  | nil => rfl
  | cons v vs ih =>
    have hstep : pos.strict.insertAt (some c) i v = some (pos.insertAt c i v) := if_pos hi
    have hsize : i + 1 ≤ Collection.size (pos.insertAt c i v) := by
      rw [h.size_insertAt v hi]
      omega
    rw [insertEach, hstep, ih hsize, insertEach]

/-- **Every insertion of a batch is at a position up to the size.** -/
theorem insertAllAt_strict (h : ActsAsSequence view) {c : C} {i : Nat} (vs : List α)
    (hi : i ≤ Collection.size c) :
    pos.strict.insertAllAt (some c) i vs = (pos.byDefault.insertAllAt c i vs).map id some :=
  Prod.ext rfl (h.insertEach_strict vs hi)

/-! #### Removals -/

theorem view_removeAt (h : ActsAsSequence view) {c : C} {i : Nat} (hi : i < Collection.size c) :
    view (Positional.removeAt c i).2 = ⟨(view c).items.eraseIdx i⟩ :=
  congrArg Prod.snd (h.removeAt c i hi)

/-- Elements that are removed one after the other, the last one first, leave what stands around
them. -/
theorem view_removeEach (h : ActsAsSequence view) {c : C} {pre mid suf : List α}
    (hc : view c = ⟨pre ++ mid ++ suf⟩) :
    view (removeEach Positional.removeAt c pre.length mid.length) = ⟨pre ++ suf⟩ := by
  induction mid using List.reverseRecOn generalizing c with
  | nil => simp [removeEach, hc]
  | append_singleton mid x ih =>
    have hlast : pre.length + mid.length < Collection.size c := by
      rw [h.size_eq_length, hc]
      simp
    have hview : view (Positional.removeAt c (pre.length + mid.length)).2 =
        ⟨pre ++ mid ++ suf⟩ := by
      rw [h.view_removeAt hlast, hc, eraseIdx_middle pre (mid ++ [x]) suf mid.length (by simp),
        List.eraseIdx_append_of_length_le (Nat.le_refl _)]
      simp
    rw [List.length_append, List.length_singleton, removeEach, ih hview]

theorem removeRange_byDefault (h : ActsAsSequence view) {c : C} {start stop : Nat}
    (hstart : start ≤ stop) (hstop : stop ≤ Collection.size c) :
    view (pos.byDefault.removeRange c start stop) =
      Positional.removeRange (view c) start stop := by
  have hlen : stop ≤ (view c).items.length := h.size_eq_length c ▸ hstop
  have htake : ((view c).items.take start).length = start :=
    List.length_take_of_le (Nat.le_trans hstart hlen)
  have hmid : (((view c).items.take stop).drop start).length = stop - start := by
    rw [List.length_drop, List.length_take_of_le hlen]
  have hc : view c = ⟨(view c).items.take start ++ ((view c).items.take stop).drop start ++
      (view c).items.drop stop⟩ := by
    have hcut : (view c).items.take start = ((view c).items.take stop).take start := by
      rw [List.take_take, Nat.min_eq_left hstart]
    rw [hcut, List.take_append_drop, List.take_append_drop]
  have hall := h.view_removeEach hc
  rw [htake, hmid] at hall
  exact hall

theorem size_removeAt (h : ActsAsSequence view) {c : C} {i : Nat} (hi : i < Collection.size c) :
    Collection.size (Positional.removeAt c i).2 + 1 = Collection.size c := by
  have hlt : i < (view c).items.length := h.size_eq_length c ▸ hi
  rw [h.size_eq_length, h.view_removeAt hi, h.size_eq_length c, List.length_eraseIdx_of_lt hlt]
  omega

theorem removeEach_strict (h : ActsAsSequence view) {c : C} {start count : Nat}
    (hrange : start + count ≤ Collection.size c) :
    removeEach pos.strict.removeAt (some c) start count =
      some (removeEach pos.removeAt c start count) := by
  induction count generalizing c with
  | zero => rfl
  | succ count ih =>
    have hlast : start + count < Collection.size c := by omega
    have hstep : (pos.strict.removeAt (some c) (start + count)).2 =
        some (pos.removeAt c (start + count)).2 :=
      congrArg Prod.snd (if_pos hlast)
    have hsize := h.size_removeAt hlast
    rw [removeEach, hstep, ih (by omega), removeEach]

/-- **Every removal of a range is at a position below the size.** -/
theorem removeRange_strict (h : ActsAsSequence view) {c : C} {start stop : Nat}
    (hstart : start ≤ stop) (hstop : stop ≤ Collection.size c) :
    pos.strict.removeRange (some c) start stop = some (pos.byDefault.removeRange c start stop) :=
  h.removeEach_strict (by omega)

/-! #### Additions -/

theorem addAll_byDefault (h : ActsAsSequence view) (c : C) (vs : List α) :
    (coll.byDefault.addAll c vs).map id view = Collection.addAll (view c) vs := by
  change (addEach coll.add c vs).map id view = (!vs.isEmpty, ⟨(view c).items ++ vs⟩)
  induction vs using List.reverseRecOn with
  | nil => simp [addEach]
  | append_singleton vs v ih =>
    have hview : view (addEach coll.add c vs).2 = ⟨(view c).items ++ vs⟩ := congrArg Prod.snd ih
    have hadd := h.add (addEach coll.add c vs).2 v
    rw [hview] at hadd
    have hflag : (coll.add (addEach coll.add c vs).2 v).1 = true := congrArg Prod.fst hadd
    have hitems : view (coll.add (addEach coll.add c vs).2 v).2 = ⟨(view c).items ++ vs ++ [v]⟩ :=
      congrArg Prod.snd hadd
    rw [addEach_concat]
    exact Prod.ext (by simp [hflag]) (by simp [hitems])

end ActsAsSequence

/-! ### Sets -/

namespace ActsAsSet

variable [coll : Collection C α] {same : α → α → Bool} {items : C → List α}

theorem contains_iff (h : ActsAsSet same items) {c : C} {v : α} :
    Collection.contains c v ↔ ∃ a ∈ items c, same v a := by
  rw [h.contains, List.any_eq_true]

theorem contains_congr (h : ActsAsSet same items) {c : C} {v x : α} (hvx : same v x) :
    Collection.contains c v = Collection.contains c x := by
  rw [Bool.eq_iff_iff, h.contains_iff, h.contains_iff]
  exact ⟨fun ⟨a, ha, hva⟩ => ⟨a, ha, h.trans (h.symm hvx) hva⟩,
    fun ⟨a, ha, hxa⟩ => ⟨a, ha, h.trans hvx hxa⟩⟩

theorem contains_add (h : ActsAsSet same items) (c : C) (v x : α) :
    Collection.contains (Collection.add c v).2 x = (Collection.contains c x || same x v) := by
  rw [Bool.eq_iff_iff, Bool.or_eq_true, h.contains_iff]
  constructor
  · rintro ⟨a, ha, hxa⟩
    rcases (h.stores c v a).1 ha with ha | ⟨-, rfl⟩
    · exact .inl (h.contains_iff.2 ⟨a, ha, hxa⟩)
    · exact .inr hxa
  · rintro (hx | hx)
    · obtain ⟨a, ha, hxa⟩ := h.contains_iff.1 hx
      exact ⟨a, (h.stores c v a).2 (.inl ha), hxa⟩
    · cases hv : Collection.contains c v with
      | true =>
        obtain ⟨a, ha, hva⟩ := h.contains_iff.1 hv
        exact ⟨a, (h.stores c v a).2 (.inl ha), h.trans hx hva⟩
      | false => exact ⟨v, (h.stores c v v).2 (.inr ⟨hv, rfl⟩), hx⟩

theorem contains_addEach (h : ActsAsSet same items) (c : C) (vs : List α) (x : α) :
    Collection.contains (addEach Collection.add c vs).2 x =
      (Collection.contains c x || vs.any (same x)) := by
  induction vs using List.reverseRecOn with
  | nil => simp [addEach]
  | append_singleton vs v ih =>
    rw [addEach_concat, h.contains_add, ih]
    simp [Bool.or_assoc]

/-- A batch changes a set if one of its values is not there yet. -/
theorem changes_addEach (h : ActsAsSet same items) (c : C) (vs : List α) :
    (addEach Collection.add c vs).1 = vs.any fun v => !Collection.contains c v := by
  induction vs using List.reverseRecOn with
  | nil => rfl
  | append_singleton vs v ih =>
    rw [addEach_concat, h.changes, h.contains_addEach, ih]
    cases hv : Collection.contains c v with
    | true => simp [hv]
    | false =>
      -- a value that is the same as `v` was not there either
      have hsame : vs.any (same v) → vs.any fun w => !Collection.contains c w := by
        intro hany
        obtain ⟨w, hw, hvw⟩ := List.any_eq_true.1 hany
        exact List.any_eq_true.2 ⟨w, hw, by rw [← h.contains_congr hvw, hv]; rfl⟩
      cases hany : vs.any (same v) with
      | true => simp [hsame hany]
      | false => simp [hv]

/-- **What a set holds after a batch**: what it held before, and of the other values of the batch
those that come before all that are the same. -/
theorem mem_addEach (h : ActsAsSet same items) (c : C) (vs : List α) (x : α) :
    x ∈ items (addEach Collection.add c vs).2 ↔
      x ∈ items c ∨ Collection.contains c x = false ∧ vs.find? (same x) = some x := by
  induction vs using List.reverseRecOn with
  | nil => simp [addEach]
  | append_singleton vs v ih =>
    have hlast : [v].find? (same x) = some x ↔ x = v := by
      rw [List.find?_singleton]
      constructor
      · intro hfind
        split at hfind
        · exact (Option.some.inj hfind).symm
        · cases hfind
      · rintro rfl
        rw [if_pos (h.refl x)]
    have hnone : vs.find? (same x) = none ↔ vs.any (same x) = false := by simp
    rw [addEach_concat, h.stores, ih, h.contains_addEach, List.find?_append, Option.or_eq_some_iff,
      hlast, hnone, Bool.or_eq_false_iff]
    constructor
    · rintro ((hx | ⟨hx, hfind⟩) | ⟨⟨hv, hany⟩, rfl⟩)
      · exact .inl hx
      · exact .inr ⟨hx, .inl hfind⟩
      · exact .inr ⟨hv, .inr ⟨hany, rfl⟩⟩
    · rintro (hx | ⟨hx, hfind | ⟨hany, rfl⟩⟩)
      · exact .inl (.inl hx)
      · exact .inl (.inr ⟨hx, hfind⟩)
      · exact .inr ⟨⟨hx, hany⟩, rfl⟩

theorem eq_of_same (h : ActsAsSet same items) {c : C} {a x : α} (hx : x ∈ items c)
    (ha : a ∈ items c) (hsame : same x a) : x = a := by
  by_contra hne
  have hsymm : Std.Symm fun a b => same a b = false :=
    ⟨fun a b hab => Bool.eq_false_iff.2 fun hba => Bool.eq_false_iff.1 hab (h.symm hba)⟩
  have hdiffer := (h.distinct c).forall hx ha hne
  rw [hsame] at hdiffer
  cases hdiffer

/-- **A stored element keeps its place** among all that are the same. -/
theorem eq_of_mem_addEach (h : ActsAsSet same items) {c : C} {vs : List α} {a x : α}
    (ha : a ∈ items c) (hx : x ∈ items (addEach Collection.add c vs).2) (hsame : same x a) :
    x = a := by
  rcases (h.mem_addEach c vs x).1 hx with hx | ⟨hx, -⟩
  · exact h.eq_of_same hx ha hsame
  · have hcontains : Collection.contains c x = true := h.contains_iff.2 ⟨a, ha, hsame⟩
    rw [hcontains] at hx
    cases hx

end ActsAsSet

/-! ### Containers that act as asked -/

theorem Sequence.actsAsSequence [BEq α] : ActsAsSequence (id : Sequence α → Sequence α) where
  size _ := rfl
  get? _ _ := rfl
  add _ _ := rfl
  insertAt _ _ _ _ := rfl
  removeAt _ _ _ := rfl

theorem NotedList.actsAsSequence [BEq α] :
    ActsAsSequence (fun l : NotedList α => (⟨l.items⟩ : Sequence α)) where
  size _ := rfl
  get? _ _ := rfl
  add _ _ := rfl
  insertAt _ _ _ _ := rfl
  removeAt _ _ _ := rfl

theorem UniqueSet.mem_insert [BEq α] (s : UniqueSet α) (v x : α) :
    x ∈ (s.insert v).2.items ↔ x ∈ s.items ∨ s.contains v = false ∧ x = v := by
  unfold insert
  split
  next hv => simp [append, hv]
  next hv => simp [hv]

theorem UniqueSet.actsAsSet [BEq α] [EquivBEq α] :
    ActsAsSet (fun v a : α => a == v) (UniqueSet.items : UniqueSet α → List α) where
  refl v := BEq.rfl
  symm h := BEq.symm h
  trans h h' := BEq.trans h' h
  distinct s := s.distinct.imp fun h => by rwa [BEq.comm]
  contains _ _ := rfl
  changes s v := by
    change (s.insert v).1 = !s.contains v
    unfold insert
    split
    next hv => rw [hv]; rfl
    next hv => simp [hv]
  stores := mem_insert

namespace SortedSet

variable [Ord α] [Std.TransOrd α]

omit [Std.TransOrd α] in
theorem mem_place_of_not_contains {v x : α} {l : List α}
    (hv : (l.any fun a => compare v a == .eq) = false) (hx : x ∈ l ∨ x = v) : x ∈ place v l := by
  induction l with
  | nil => simpa [place] using hx
  | cons a rest ih =>
    obtain ⟨ha, hrest⟩ := Bool.or_eq_false_iff.1 hv
    unfold place
    split
    next => simpa [or_comm] using hx
    next heq => simp [heq] at ha
    next =>
      rw [List.mem_cons]
      rcases hx with hx | hx
      · exact (List.mem_cons.1 hx).imp_right fun hx => ih hrest (.inl hx)
      · exact .inr (ih hrest (.inr hx))

theorem mem_insert (s : SortedSet α) (v x : α) :
    x ∈ (s.insert v).2.items ↔ x ∈ s.items ∨ s.contains v = false ∧ x = v := by
  obtain ⟨hsame, -⟩ := place_shows v s.ascending
  change x ∈ place v s.items ↔ _
  cases hv : s.contains v with
  | true => simp [hsame hv]
  | false =>
    constructor
    · intro hx
      exact (mem_place hx).symm.imp_right fun hx => ⟨rfl, hx⟩
    · rintro (hx | ⟨-, hx⟩)
      · exact mem_place_of_not_contains hv (.inl hx)
      · exact mem_place_of_not_contains hv (.inr hx)

theorem actsAsSet :
    ActsAsSet (fun v a : α => compare v a == .eq) (SortedSet.items : SortedSet α → List α) where
  refl v := by simp
  symm h := by
    simp only [beq_iff_eq] at h ⊢
    exact Std.OrientedCmp.eq_symm h
  trans h h' := by
    simp only [beq_iff_eq] at h h' ⊢
    exact Std.TransCmp.eq_trans h h'
  distinct s := s.ascending.imp fun h => by
    rw [show compare _ _ = Ordering.lt from h]
    rfl
  contains _ _ := rfl
  changes _ _ := rfl
  stores := mem_insert

/-- **The size of a range** is the number of its elements, however it is counted. -/
theorem sizeWithin_byDefault (s : SortedSet α) (b : Bounds α) :
    (Sorted.byDefault (C := SortedSet α) inferInstance).sizeWithin s b = s.sizeWithin b :=
  (congrArg List.length (s.within_eq b)).trans (s.sizeWithin_eq b).symm

end SortedSet

/-! ### The result -/

/-- **The defaults agree with the operations they stand in for.**

For any list container that does as a sequence does at the positions it is called at: its batches,
which go element by element, leave the same elements in the same order and give the same answer as
those of a sequence, which take the batch or the range as a whole.  A batch stands at its position
in its own order, exactly the range is removed, and the answer tells whether there was anything to
add.  No step is at a position that it is not meant for; a container that insists on that is not
lost.

The size of a range of a sorted set is the number of its elements within the bounds, whether they
are gathered or counted, and whatever the bounds.

For any set container: a batch that is added value by value leaves all of its values in the set,
also those that come after a change, and changes the set if and only if one of them was not there.
The elements that were there stay, none that is the same comes beside them, and of new values that
are the same the first one is stored.  A unique set and a sorted set are such containers, and they
do not bring an operation of their own for batches. -/
theorem byDefault_agrees :
    (∀ {C α : Type} [BEq α] [coll : Collection C α] [pos : Positional C α]
        {view : C → Sequence α}, ActsAsSequence view → ∀ (c : C) (vs : List α),
      ((coll.byDefault.addAll c vs).map id view = Collection.addAll (view c) vs ∧
        Collection.addAll (view c) vs = (!vs.isEmpty, ⟨(view c).items ++ vs⟩)) ∧
      (∀ i ≤ Collection.size c,
        (pos.byDefault.insertAllAt c i vs).map id view = Positional.insertAllAt (view c) i vs ∧
        Positional.insertAllAt (view c) i vs =
          (!vs.isEmpty, ⟨(view c).items.take i ++ vs ++ (view c).items.drop i⟩) ∧
        pos.strict.insertAllAt (some c) i vs = (pos.byDefault.insertAllAt c i vs).map id some) ∧
      ∀ start stop, start ≤ stop → stop ≤ Collection.size c →
        view (pos.byDefault.removeRange c start stop) =
          Positional.removeRange (view c) start stop ∧
        Positional.removeRange (view c) start stop =
          ⟨(view c).items.take start ++ (view c).items.drop stop⟩ ∧
        pos.strict.removeRange (some c) start stop =
          some (pos.byDefault.removeRange c start stop)) ∧
    (∀ {α : Type} [Ord α] [Std.TransOrd α] (s : SortedSet α) (b : Bounds α),
      (Sorted.byDefault (C := SortedSet α) inferInstance).sizeWithin s b = Sorted.sizeWithin s b ∧
      Sorted.sizeWithin s b = (s.items.filter b.contains).length) ∧
    (∀ {C α : Type} [coll : Collection C α] {same : α → α → Bool} {items : C → List α},
      ActsAsSet same items → ∀ (c : C) (vs : List α),
        let added := coll.byDefault.addAll c vs
        (added.1 ↔ ∃ v ∈ vs, Collection.contains c v = false) ∧
        (∀ v ∈ vs, Collection.contains added.2 v) ∧
        (∀ x, x ∈ items added.2 ↔
          x ∈ items c ∨ Collection.contains c x = false ∧ vs.find? (same x) = some x) ∧
        ∀ a ∈ items c, ∀ x ∈ items added.2, same x a → x = a) ∧
    (∀ {α : Type} [BEq α] [EquivBEq α],
      ActsAsSet (fun v a : α => a == v) (UniqueSet.items (α := α)) ∧
      Collection.addAll (C := UniqueSet α) = addEach Collection.add) ∧
    ∀ {α : Type} [Ord α] [Std.TransOrd α],
      ActsAsSet (fun v a : α => compare v a == .eq) (SortedSet.items (α := α)) ∧
      Collection.addAll (C := SortedSet α) = addEach Collection.add := by
  refine ⟨?_, ?_, ?_, fun {α} _ _ => ⟨UniqueSet.actsAsSet, rfl⟩,
    fun {α} _ _ => ⟨SortedSet.actsAsSet, rfl⟩⟩
  · intro C α _ coll pos view h c vs
    refine ⟨⟨h.addAll_byDefault c vs, rfl⟩, ?_, ?_⟩
    · intro i hi
      exact ⟨h.insertAllAt_byDefault vs hi, rfl, h.insertAllAt_strict vs hi⟩
    · intro start stop hstart hstop
      exact ⟨h.removeRange_byDefault hstart hstop, rfl, h.removeRange_strict hstart hstop⟩
  · intro α _ _ s b
    exact ⟨s.sizeWithin_byDefault b, s.sizeWithin_eq b⟩
  · intro C α coll same items h c vs added
    refine ⟨?_, ?_, h.mem_addEach c vs, fun a ha x hx => h.eq_of_mem_addEach ha hx⟩
    · rw [show added.1 = _ from h.changes_addEach c vs, List.any_eq_true]
      simp only [Bool.not_eq_true']
    · intro v hv
      rw [show Collection.contains added.2 v = _ from h.contains_addEach c vs v, Bool.or_eq_true,
        List.any_eq_true]
      exact .inr ⟨v, hv, h.refl v⟩

/-- Two values go between the first and the second element of a list that notes each step, and three
shared texts into a set that holds one of them already. -/
theorem byDefault_agrees_noted :
    let pos : Positional (NotedList Int) Int := inferInstance
    let coll : Collection (SortedSet SharedText) SharedText := inferInstance
    let view := fun l : NotedList Int => (⟨l.items⟩ : Sequence Int)
    let l : NotedList Int := ⟨[1, 2, 3], []⟩
    let s : SortedSet SharedText := ⟨[⟨"b", 0⟩], List.pairwise_singleton _ _⟩
    let vs : List SharedText := [⟨"a", 1⟩, ⟨"b", 2⟩, ⟨"a", 3⟩]
    ActsAsSequence view ∧ 1 ≤ Collection.size l ∧
      (pos.byDefault.insertAllAt l 1 [7, 8]).map id view = (true, ⟨[1, 7, 8, 2, 3]⟩) ∧
      pos.strict.insertAllAt (some l) 1 [7, 8] =
        (true, some ⟨[1, 7, 8, 2, 3], [⟨"insert_at", 1⟩, ⟨"insert_at", 2⟩]⟩) ∧
      view (pos.byDefault.removeRange l 0 2) = ⟨[3]⟩ ∧
      (coll.byDefault.addAll s vs).1 ∧
      (∀ v ∈ vs, Collection.contains (coll.byDefault.addAll s vs).2 v) ∧
      (⟨"a", 1⟩ : SharedText) ∈ (coll.byDefault.addAll s vs).2.items ∧
      ∀ x ∈ (coll.byDefault.addAll s vs).2.items, (compare x ⟨"b", 0⟩ == .eq) = true →
        x = ⟨"b", 0⟩ := by
  intro pos coll view l s vs
  obtain ⟨hlist, -, hset, -, -⟩ := byDefault_agrees
  have hview : ActsAsSequence view := NotedList.actsAsSequence
  have hone : 1 ≤ Collection.size l := by decide
  obtain ⟨-, hinsert, hremove⟩ := hlist hview l [7, 8]
  obtain ⟨hinserted, -, hstrict⟩ := hinsert 1 hone
  obtain ⟨hremoved, -, -⟩ := hremove 0 2 (by decide) (by decide)
  obtain ⟨hchanged, hall, hmem, hkept⟩ := hset SortedSet.actsAsSet s vs
  have hnew : Collection.contains s ⟨"a", 1⟩ = false := by decide +kernel
  have hfirst : (⟨"a", 1⟩ : SharedText) ∈ vs := List.mem_cons_self
  refine ⟨hview, hone, hinserted, ?_, hremoved, hchanged.2 ⟨_, hfirst, hnew⟩, hall,
    (hmem _).2 (.inr ⟨hnew, ?_⟩), hkept _ (List.mem_singleton.2 rfl)⟩
  · rw [hstrict]
    rfl
  · rfl

end WatchedContainers
