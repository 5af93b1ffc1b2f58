import Mathlib.Data.List.Induction
import WatchedContainers.Watched.Mutation

/-!
# Segments of a sequence

A segment of a sequence is what stands between the elements in front of it and those behind it
(`Segment.around`).  Every operation of a segment is the operation of a list that holds its elements
only, with what stands around it left alone.

* `Segment.sweep_around`: going down a segment by position filters it.
* `Segment.operation_eq`: **locality of segments**, for every command at once.
-/

namespace WatchedContainers

variable {α : Type}

/-! ### Lists with a middle part -/

section Middle

variable (pre mid suf : List α) (i : Nat)

theorem getElem?_middle (h : i < mid.length) : (pre ++ mid ++ suf)[pre.length + i]? = mid[i]? := by
  rw [List.append_assoc, List.getElem?_append_right (by omega), Nat.add_sub_cancel_left,
    List.getElem?_append_left h]

theorem eraseIdx_middle (h : i < mid.length) :
    (pre ++ mid ++ suf).eraseIdx (pre.length + i) = pre ++ mid.eraseIdx i ++ suf := by
  rw [List.append_assoc, List.eraseIdx_append_of_length_le (by omega), Nat.add_sub_cancel_left,
    List.eraseIdx_append_of_lt_length h, List.append_assoc]

theorem set_middle (v : α) (h : i < mid.length) :
    (pre ++ mid ++ suf).set (pre.length + i) v = pre ++ mid.set i v ++ suf := by
  rw [List.append_assoc, List.set_append_right _ _ (by omega), Nat.add_sub_cancel_left,
    List.set_append_left _ _ h, List.append_assoc]

theorem take_middle (h : i ≤ mid.length) :
    (pre ++ mid ++ suf).take (pre.length + i) = pre ++ mid.take i := by
  rw [List.append_assoc, List.take_length_add_append, List.take_append_of_le_length h]

theorem drop_middle (h : i ≤ mid.length) :
    (pre ++ mid ++ suf).drop (pre.length + i) = mid.drop i ++ suf := by
  rw [List.append_assoc, List.drop_length_add_append, List.drop_append_of_le_length h]

theorem insertIdx_eq_take_append_drop (l : List α) (i : Nat) (v : α) (h : i ≤ l.length) :
    l.insertIdx i v = l.take i ++ v :: l.drop i := by
  induction l generalizing i with
  | nil =>
    obtain rfl : i = 0 := Nat.le_zero.1 h
    rfl
  | cons a l ih =>
    cases i with
    | zero => rfl
    | succ i =>
      rw [List.insertIdx_succ_cons, ih i (Nat.le_of_succ_le_succ h)]
      rfl

theorem insertIdx_middle (v : α) (h : i ≤ mid.length) :
    (pre ++ mid ++ suf).insertIdx (pre.length + i) v = pre ++ mid.insertIdx i v ++ suf := by
  rw [insertIdx_eq_take_append_drop _ _ _ (by simp only [List.length_append]; omega),
    take_middle _ _ _ _ h, drop_middle _ _ _ _ h, insertIdx_eq_take_append_drop _ _ _ h]
  simp

end Middle

section Positions

variable {l : List α} {f : Nat → Option α}

/-- What reads the positions of a list reads those of its front, and then the last element. -/
theorem reads_concat {x : α} (h : ∀ i, i < (l ++ [x]).length → f i = (l ++ [x])[i]?) :
    (∀ i, i < l.length → f i = l[i]?) ∧ f l.length = some x := by
  constructor
  · intro i hi
    rw [h i (by simp only [List.length_append]; omega), List.getElem?_append_left hi]
  · rw [h l.length (by simp), List.getElem?_concat_length]

theorem filterMap_range (h : ∀ i, i < l.length → f i = l[i]?) :
    (List.range l.length).filterMap f = l := by
  induction l using List.reverseRecOn with
  | nil => rfl
  | append_singleton l x ih =>
    obtain ⟨hinit, hlast⟩ := reads_concat h
    rw [List.length_append, List.length_singleton, List.range_succ, List.filterMap_append, ih hinit]
    simp [hlast]

theorem find?_range (p : α → Bool) (h : ∀ i, i < l.length → f i = l[i]?) :
    ((List.range l.length).find? fun i => match f i with
      | some x => p x
      | none => false) = l.findIdx? p := by
  induction l using List.reverseRecOn with
  | nil => rfl
  | append_singleton l x ih =>
    obtain ⟨hinit, hlast⟩ := reads_concat h
    rw [List.length_append, List.length_singleton, List.range_succ, List.find?_append, ih hinit,
      List.findIdx?_append]
    cases hx : p x <;> simp [hlast, hx]

end Positions

/-! ### Sequences as lists -/

namespace Sequence

section Access

variable (s : Sequence α) (i j : Nat) (v : α)

@[simp] theorem get?_eq : Positional.get? s i = s.items[i]? := rfl

@[simp] theorem insertAt_eq : Positional.insertAt s i v = ⟨s.items.insertIdx i v⟩ := rfl

@[simp] theorem insertAllAt_eq (vs : List α) :
    Positional.insertAllAt s i vs = (!vs.isEmpty, ⟨s.items.take i ++ vs ++ s.items.drop i⟩) := rfl

@[simp] theorem removeAt_eq :
    Positional.removeAt s i = (s.items[i]?, ⟨s.items.eraseIdx i⟩) := rfl

@[simp] theorem setAt_eq : Positional.setAt s i v = (s.items[i]?, ⟨s.items.set i v⟩) := rfl

@[simp] theorem removeRange_eq :
    Positional.removeRange s i j = ⟨s.items.take i ++ s.items.drop j⟩ := rfl

@[simp] theorem size_eq [BEq α] : Collection.size s = s.items.length := rfl

end Access

/-! ### Windows of a sequence -/

variable (pre mid suf : List α)

@[simp] theorem window_middle :
    Sequence.window pre.length suf.length (⟨pre ++ mid ++ suf⟩ : Sequence α) = mid := by
  rw [window, List.length_append, Nat.add_sub_cancel, List.take_left, List.drop_left]

@[simp] theorem splice_middle (items : List α) :
    Sequence.splice pre.length suf.length (⟨pre ++ mid ++ suf⟩ : Sequence α) items =
      ⟨pre ++ items ++ suf⟩ := by
  rw [splice, List.length_append, Nat.add_sub_cancel, List.drop_left, List.append_assoc pre mid,
    List.take_left]

/-- A window that fits in a sequence has elements in front of it and behind it. -/
theorem exists_middle (s : Sequence α) (start tail : Nat) (h : start + tail ≤ s.items.length) :
    ∃ pre mid suf, s = ⟨pre ++ mid ++ suf⟩ ∧ start = pre.length ∧ tail = suf.length := by
  refine ⟨s.items.take start, s.window start tail, s.items.drop (s.items.length - tail), ?_, ?_, ?_⟩
  · have hcut : s.items.take start = (s.items.take (s.items.length - tail)).take start := by
      rw [List.take_take, Nat.min_eq_left (by omega)]
    rw [window, hcut, List.take_append_drop, List.take_append_drop]
  · rw [List.length_take]
    omega
  · rw [List.length_drop]
    omega

theorem within_middle (f : Sequence α → Except Error (Mutation (Sequence α) α)) :
    within pre.length suf.length f ⟨pre ++ mid ++ suf⟩ =
      (f ⟨mid⟩).map (.map fun t => ⟨pre ++ t.items ++ suf⟩) := by
  rw [within, window_middle]
  exact congrArg (fun g => (f ⟨mid⟩).map (Mutation.map g))
    (funext fun t => splice_middle pre mid suf t.items)

theorem within_zero (f : Sequence α → Except Error (Mutation (Sequence α) α)) (s : Sequence α) :
    within 0 0 f s = f s := by
  have h := within_middle [] s.items [] f
  simp only [List.nil_append, List.append_nil, List.length_nil] at h
  rw [h]
  cases f s <;> rfl

end Sequence

namespace Segment

def around (pre mid suf : List α) : Segment (Sequence α) :=
  ⟨⟨pre ++ mid ++ suf⟩, pre.length, suf.length⟩

variable (pre mid suf : List α)

@[simp] theorem list_around : (around pre mid suf).list = ⟨pre ++ mid ++ suf⟩ := rfl

@[simp] theorem start_around : (around pre mid suf).start = pre.length := rfl

@[simp] theorem tail_around : (around pre mid suf).tail = suf.length := rfl

theorem whole_eq_around (s : Sequence α) : whole s = around [] s.items [] := by
  simp [whole, around]

theorem getElem?_around {i : Nat} (h : i < mid.length) :
    Positional.get? (around pre mid suf).list ((around pre mid suf).start + i) = mid[i]? :=
  getElem?_middle pre mid suf i h

/-- A sweep filters the elements of the segment. -/
theorem sweep_around (keep : α → Bool) :
    sweep keep (⟨pre ++ mid ++ suf⟩ : Sequence α) pre.length mid.length =
      ((mid.filter keep).length != mid.length, ⟨pre ++ mid.filter keep ++ suf⟩) := by
  induction mid using List.reverseRecOn generalizing suf with
  | nil => rfl
  | append_singleton mid x ih =>
    have hx : Positional.get? (⟨pre ++ (mid ++ [x]) ++ suf⟩ : Sequence α)
        (pre.length + mid.length) = some x := by
      have := getElem?_middle pre (mid ++ [x]) suf mid.length (by simp)
      rwa [List.getElem?_concat_length] at this
    have hfilter := List.length_filter_le keep mid
    rw [List.length_append, List.length_singleton, sweep, hx]
    by_cases hk : keep x
    · have hlist : pre ++ (mid ++ [x]) ++ suf = pre ++ mid ++ (x :: suf) := by simp
      simp only [hk, if_true, hlist, ih (x :: suf)]
      simp [hk]
    · have herase : (Positional.removeAt (⟨pre ++ (mid ++ [x]) ++ suf⟩ : Sequence α)
          (pre.length + mid.length)).2 = ⟨pre ++ mid ++ suf⟩ := by
        have := eraseIdx_middle pre (mid ++ [x]) suf mid.length (by simp)
        simp only [Positional.removeAt, this]
        simp [List.eraseIdx_append_of_length_le]
      simp only [hk, herase, ih suf]
      simp [hk]
      omega

variable [BEq α]

@[simp] theorem length_around : (around pre mid suf).length = mid.length := by
  rw [length, list_around, Sequence.size_eq, start_around, tail_around, List.length_append,
    List.length_append]
  omega

theorem end_around :
    Collection.size (⟨pre ++ mid ++ suf⟩ : Sequence α) - suf.length = pre.length + mid.length := by
  rw [Sequence.size_eq, List.length_append, Nat.add_sub_cancel, List.length_append]

/-! ### Reading -/

@[simp] theorem get?_around (i : Nat) : (around pre mid suf).get? i = mid[i]? := by
  unfold get?
  rw [length_around]
  split
  next h => exact getElem?_around pre mid suf h
  next h => exact (List.getElem?_eq_none (Nat.not_lt.1 h)).symm

@[simp] theorem values_around : (around pre mid suf).values = mid := by
  rw [values, length_around]
  exact filterMap_range fun i hi => getElem?_around pre mid suf hi

omit pre mid suf in
theorem values_eq_window (s : Segment (Sequence α)) (h : s.start + s.tail ≤ s.list.items.length) :
    s.values = s.list.window s.start s.tail := by
  obtain ⟨list, start, tail⟩ := s
  obtain ⟨pre, mid, suf, rfl, rfl, rfl⟩ := Sequence.exists_middle list start tail h
  exact (values_around pre mid suf).trans (Sequence.window_middle pre mid suf).symm

theorem position?_around (v : α) :
    (around pre mid suf).position? v = mid.findIdx? (· == v) := by
  rw [position?, length_around]
  exact find?_range (· == v) fun i hi => getElem?_around pre mid suf hi

theorem contains_around (v : α) : (around pre mid suf).contains v = mid.any (· == v) := by
  rw [contains, position?_around, List.findIdx?_isSome]

/-! ### Plans -/

theorem planAdd_around (v : α) :
    planAdd v (around pre mid suf) =
      .ok (.reporting (.add v) (pre ++ mid ++ suf).length false (around pre (mid ++ [v]) suf)
        (.add v true) (pre ++ (mid ++ [v]) ++ suf).length true) := by
  have hin := insertIdx_middle pre mid suf mid.length v (Nat.le_refl _)
  have hget := getElem?_middle pre (mid ++ [v]) suf mid.length (by simp)
  rw [List.insertIdx_length_self] at hin
  rw [List.getElem?_concat_length] at hget
  simp only [planAdd, list_around, tail_around, end_around, Sequence.insertAt_eq, hin,
    Sequence.get?_eq, hget]
  rfl

theorem planAddAll_around (vs : List α) :
    planAddAll vs (around pre mid suf) =
      .ok (.reporting (.addAll vs) (pre ++ mid ++ suf).length false (around pre (mid ++ vs) suf)
        (.addAll vs (!vs.isEmpty)) (pre ++ (mid ++ vs) ++ suf).length (!vs.isEmpty)) := by
  have hlist : (pre ++ mid ++ suf).take (pre.length + mid.length) ++ vs ++
      (pre ++ mid ++ suf).drop (pre.length + mid.length) = pre ++ (mid ++ vs) ++ suf := by
    rw [take_middle _ _ _ _ (Nat.le_refl _), drop_middle _ _ _ _ (Nat.le_refl _)]
    simp
  simp only [planAddAll, list_around, tail_around, end_around, Sequence.insertAllAt_eq, hlist]
  rfl

theorem planRemove_around (v : α) :
    planRemove v (around pre mid suf) =
      .ok (.reporting (.remove v) (pre ++ mid ++ suf).length false
        (around pre (Sequence.remove ⟨mid⟩ v).2.items suf)
        (.remove v (Sequence.remove ⟨mid⟩ v).1)
        (pre ++ (Sequence.remove ⟨mid⟩ v).2.items ++ suf).length
        (Sequence.remove ⟨mid⟩ v).1.isSome) := by
  simp only [planRemove, position?_around, Sequence.remove]
  cases hi : mid.findIdx? (· == v) with
  | none => rfl
  | some i =>
    have hlt : i < mid.length := (List.findIdx?_eq_some_iff_findIdx_eq.1 hi).1
    simp only [list_around, start_around, Sequence.removeAt_eq, getElem?_middle _ _ _ _ hlt,
      eraseIdx_middle _ _ _ _ hlt]
    rfl

theorem retain_around (keep : α → Bool) :
    (around pre mid suf).retain keep =
      ((mid.filter keep).length != mid.length, ⟨pre ++ mid.filter keep ++ suf⟩) := by
  rw [retain, length_around]
  exact sweep_around pre mid suf keep

theorem planClear_around :
    planClear (around pre mid suf) =
      .ok (.reporting .clear (pre ++ mid ++ suf).length false (around pre [] suf)
        (.clear (mid.length != 0)) (pre ++ [] ++ suf).length (mid.length != 0)) := by
  have hlist : (pre ++ mid ++ suf).take pre.length ++
      (pre ++ mid ++ suf).drop (pre.length + mid.length) = pre ++ [] ++ suf := by
    rw [drop_middle _ _ _ _ (Nat.le_refl _), List.append_assoc pre mid, List.take_left]
    simp
  simp only [planClear, length_around, list_around, start_around, Sequence.removeRange_eq, hlist]
  rfl

theorem planAddAt_around (i : Nat) (v : α) :
    planAddAt i v (around pre mid suf) =
      if i ≤ mid.length then
        .ok (.reporting (.addIndexed i v) (pre ++ mid ++ suf).length false
          (around pre (mid.insertIdx i v) suf) (.addIndexed i v)
          (pre ++ mid.insertIdx i v ++ suf).length true)
      else .error (.indexOutOfBounds i mid.length) := by
  rw [planAddAt, checkInsert, length_around]
  by_cases hi : i ≤ mid.length
  · have hlen : i < (mid.insertIdx i v).length := by
      rw [List.length_insertIdx_of_le_length hi]
      omega
    have hget := getElem?_middle pre (mid.insertIdx i v) suf i hlen
    rw [List.getElem?_insertIdx_self, if_pos hi] at hget
    rw [if_neg (Nat.not_lt.2 hi), if_pos hi]
    simp only [list_around, start_around, Sequence.insertAt_eq, insertIdx_middle _ _ _ _ _ hi,
      Sequence.get?_eq, hget]
    rfl
  · rw [if_pos (Nat.not_le.1 hi), if_neg hi]
    rfl

theorem planAddAllAt_around (i : Nat) (vs : List α) :
    planAddAllAt i vs (around pre mid suf) =
      if i ≤ mid.length then
        .ok (.reporting (.addAllIndexed i vs) (pre ++ mid ++ suf).length false
          (around pre (mid.take i ++ vs ++ mid.drop i) suf)
          (.addAllIndexed i vs (!vs.isEmpty))
          (pre ++ (mid.take i ++ vs ++ mid.drop i) ++ suf).length (!vs.isEmpty))
      else .error (.indexOutOfBounds i mid.length) := by
  rw [planAddAllAt, checkInsert, length_around]
  by_cases hi : i ≤ mid.length
  · have hlist : (pre ++ mid ++ suf).take (pre.length + i) ++ vs ++
        (pre ++ mid ++ suf).drop (pre.length + i) =
          pre ++ (mid.take i ++ vs ++ mid.drop i) ++ suf := by
      rw [take_middle _ _ _ _ hi, drop_middle _ _ _ _ hi]
      simp
    rw [if_neg (Nat.not_lt.2 hi), if_pos hi]
    simp only [list_around, start_around, Sequence.insertAllAt_eq, hlist]
    rfl
  · rw [if_pos (Nat.not_le.1 hi), if_neg hi]
    rfl

theorem planRemoveAt_around (i : Nat) :
    planRemoveAt i (around pre mid suf) =
      match mid[i]? with
      | some p =>
        .ok (.reporting (.removeIndexed i) (pre ++ mid ++ suf).length none
          (around pre (mid.eraseIdx i) suf) (.removeIndexed i p)
          (pre ++ mid.eraseIdx i ++ suf).length (some p))
      | none => .error (.indexOutOfBounds i mid.length) := by
  rw [planRemoveAt, check, length_around]
  by_cases hi : i < mid.length
  · have hp := List.getElem?_eq_getElem hi
    rw [if_neg (Nat.not_le.2 hi), hp]
    simp only [list_around, start_around, Sequence.removeAt_eq, getElem?_middle _ _ _ _ hi, hp,
      eraseIdx_middle _ _ _ _ hi]
    rfl
  · rw [if_pos (Nat.not_lt.1 hi), List.getElem?_eq_none (Nat.not_lt.1 hi)]
    rfl

theorem planSet_around (i : Nat) (v : α) :
    planSet i v (around pre mid suf) =
      match mid[i]? with
      | some p =>
        .ok (.reporting (.setIndexed i v) (pre ++ mid ++ suf).length none
          (around pre (mid.set i v) suf) (.setIndexed i v p)
          (pre ++ mid.set i v ++ suf).length (some p))
      | none => .error (.indexOutOfBounds i mid.length) := by
  rw [planSet, check, length_around]
  by_cases hi : i < mid.length
  · have hp := List.getElem?_eq_getElem hi
    have hget := getElem?_middle pre (mid.set i v) suf i (by simpa using hi)
    rw [List.getElem?_set_self hi] at hget
    rw [if_neg (Nat.not_le.2 hi), hp]
    simp only [list_around, start_around, Sequence.setAt_eq, getElem?_middle _ _ _ _ hi, hp,
      set_middle _ _ _ _ _ hi, Sequence.get?_eq, hget]
    simp [around]
  · rw [if_pos (Nat.not_lt.1 hi), List.getElem?_eq_none (Nat.not_lt.1 hi)]
    rfl

/-! ### Commands -/

theorem operation_around (command : Command α) :
    (operation? command).map (· (around pre mid suf)) =
      (Sequence.mutation? command).map fun f => (f ⟨mid⟩).map fun m =>
        (m.map fun t => (⟨pre ++ t.items ++ suf⟩ : Sequence α)).plan Collection.size command
          ⟨pre ++ mid ++ suf⟩ fun list => { around pre mid suf with list } := by
  cases command with
  | add v => exact congrArg some (Operation.answering_eq (planAdd_around pre mid suf v))
  | addAll vs => exact congrArg some (Operation.answering_eq (planAddAll_around pre mid suf vs))
  | remove v => exact congrArg some (Operation.answering_eq (planRemove_around pre mid suf v))
  | removeAll vs =>
    refine congrArg some ((Operation.answering_eq rfl).trans ?_)
    rw [planRemoveAll, retain_around]
    rfl
  | retainAll vs =>
    refine congrArg some ((Operation.answering_eq rfl).trans ?_)
    rw [planRetainAll, retain_around]
    rfl
  | clear => exact congrArg some (Operation.answering_eq (planClear_around pre mid suf))
  | addAt i v =>
    refine congrArg some ((Operation.answering_eq (planAddAt_around pre mid suf i v)).trans ?_)
    by_cases hi : i ≤ mid.length
    · simp only [if_pos hi]
      rfl
    · simp only [if_neg hi]
      rfl
  | addAllAt i vs =>
    refine congrArg some ((Operation.answering_eq (planAddAllAt_around pre mid suf i vs)).trans ?_)
    by_cases hi : i ≤ mid.length
    · simp only [if_pos hi]
      rfl
    · simp only [if_neg hi]
      rfl
  | removeAt i =>
    refine congrArg some ((Operation.answering_eq (planRemoveAt_around pre mid suf i)).trans ?_)
    cases hp : mid[i]? with
    | none => simp only [hp]; rfl
    | some p => simp only [hp]; rfl
  | set i v =>
    refine congrArg some ((Operation.answering_eq (planSet_around pre mid suf i v)).trans ?_)
    cases hp : mid[i]? with
    | none => simp only [hp]; rfl
    | some p => simp only [hp]; rfl
  | _ => rfl

/-- **Locality of segments.**  A command at a segment carries out, within its window, the mutation
that the command stands for on a list of the segment's elements. -/
theorem operation_eq (s : Segment (Sequence α)) (h : s.start + s.tail ≤ s.list.items.length)
    (command : Command α) :
    (operation? command).map (· s) =
      Mutation.planned Collection.size command s.list (fun list => { s with list })
        (((Sequence.mutation? command).map (Sequence.within s.start s.tail)).map (· s.list)) := by
  obtain ⟨list, start, tail⟩ := s
  obtain ⟨pre, mid, suf, rfl, rfl, rfl⟩ := Sequence.exists_middle list start tail h
  refine (operation_around pre mid suf command).trans ?_
  rw [Mutation.planned, Option.map_map, Option.map_map]
  refine congrArg (Option.map · (Sequence.mutation? command)) (funext fun f => ?_)
  rw [Function.comp_apply, Function.comp_apply, Sequence.within_middle]
  cases f ⟨mid⟩ <;> rfl

end Segment

end WatchedContainers
