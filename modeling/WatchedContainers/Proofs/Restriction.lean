import WatchedContainers.Proofs.SortedRange
import WatchedContainers.Watched.Restriction

/-!
# Mutations of a restricted sorted set

A mutation at a range of a sorted set does to the elements of the range what the same mutation does
to a sorted set that holds these elements only, and nothing to the others.

* `SortedSet.insert_restrict`, `take_restrict`, `retain_restrict`: the operations, one by one.
* `SortedSet.rangeMutation?_restrict`, `SortedSet.iterationMutation?_restrict`: **a mutation at a
  range is one of the restricted set**, and leaves what is out of bounds.
* `SubRange.sweeps_retain`: **walks that remove come to their end.**
-/

namespace WatchedContainers

variable {α : Type} [Ord α] [Std.TransOrd α]

/-! ### Bounds -/

theorem Bounds.contains_congr (b : Bounds α) {x y : α} (h : compare x y = .eq) :
    b.contains x = b.contains y := by
  obtain ⟨lower, upper⟩ := b
  have hfrom : lower.allowsFrom x = lower.allowsFrom y := by
    cases lower with
    | included z => exact congrArg Ordering.isLE (Std.TransCmp.congr_right h)
    | excluded z => exact congrArg (· == Ordering.lt) (Std.TransCmp.congr_right h)
    | unbounded => rfl
  have hto : upper.allowsTo x = upper.allowsTo y := by
    cases upper with
    | included z => exact congrArg Ordering.isLE (Std.TransCmp.congr_left h)
    | excluded z => exact congrArg (· == Ordering.lt) (Std.TransCmp.congr_left h)
    | unbounded => rfl
  rw [Bounds.contains, Bounds.contains, hfrom, hto]

omit [Std.TransOrd α] in
theorem Action.isWithin_of_ne_command {b : Bounds α} {a : Action α} (ha : ∀ c, a ≠ .command c) :
    a.isWithin b := by
  cases a with
  | command c => exact absurd rfl (ha c)
  | _ => rfl

def Mutation.ofResult {C β : Type} (proposal : Modification α) (completion : β → Completion α)
    (response : β → Response α) (p : β × C) : Mutation C α :=
  ⟨proposal, completion p.1, response p.1, p.2⟩

namespace SortedSet

def restrict (b : Bounds α) (s : SortedSet α) : SortedSet α := s.filter b.contains

def outside (b : Bounds α) (s : SortedSet α) : List α := s.items.filter fun x => !b.contains x

variable {b : Bounds α} {s : SortedSet α} {v : α}

omit [Std.TransOrd α] in
theorem length_restrict_add (b : Bounds α) (s : SortedSet α) :
    (s.restrict b).items.length + (s.outside b).length = s.items.length := by
  change (s.items.filter _).length + (s.items.filter _).length = s.items.length
  rw [← List.countP_eq_length_filter, ← List.countP_eq_length_filter,
    List.length_eq_countP_add_countP b.contains]
  simp

omit [Std.TransOrd α] in
theorem restrict_all (s : SortedSet α) : s.restrict .all = s :=
  filter_eq_self fun _ _ => rfl

/-! ### Insertion -/

omit [Std.TransOrd α] in
theorem place_of_lt {l : List α} (h : ∀ x ∈ l, compare v x = .lt) : place v l = v :: l := by
  cases l with
  | nil => rfl
  | cons a rest => rw [place, h a List.mem_cons_self]

theorem place_restrict (hv : b.contains v) {l : List α} (hl : l.Pairwise Precedes) :
    (place v l).filter b.contains = place v (l.filter b.contains) := by
  induction l with
  | nil => simp [place, hv]
  | cons a rest ih =>
    obtain ⟨ha, hrest⟩ := List.pairwise_cons.1 hl
    cases hc : compare v a with
    | lt =>
      have hbelow : ∀ x ∈ (a :: rest).filter b.contains, compare v x = .lt := by
        intro x hx
        rcases List.mem_cons.1 (List.mem_filter.1 hx).1 with rfl | hx
        · exact hc
        · exact Std.TransCmp.lt_trans hc (ha x hx)
      simp only [place, hc]
      rw [place_of_lt hbelow, List.filter_cons_of_pos hv]
    | eq =>
      have hab : b.contains a := by rwa [← b.contains_congr hc]
      simp only [place, hc, List.filter_cons_of_pos hab]
    | gt =>
      simp only [place, hc]
      by_cases hab : b.contains a
      · rw [List.filter_cons_of_pos hab, List.filter_cons_of_pos hab, ih hrest]
        simp only [place, hc]
      · rw [List.filter_cons_of_neg hab, List.filter_cons_of_neg hab, ih hrest]

omit [Std.TransOrd α] in
theorem place_outside (hv : b.contains v) (l : List α) :
    ((place v l).filter fun x => !b.contains x) = l.filter fun x => !b.contains x := by
  induction l with
  | nil => simp [place, hv]
  | cons a rest ih =>
    unfold place
    split
    · rw [List.filter_cons_of_neg (by simp [hv])]
    · rfl
    · rw [List.filter_cons, List.filter_cons, ih]

theorem contains_restrict (b : Bounds α) (s : SortedSet α) (v : α) :
    (s.restrict b).contains v = (b.contains v && s.contains v) := by
  unfold contains restrict filter
  rw [List.any_filter]
  cases hv : b.contains v with
  | false =>
    refine List.any_eq_false.2 ?_
    intro x _
    cases hc : compare v x with
    | eq => simp [← b.contains_congr hc, hv]
    | lt => simp
    | gt => simp
  | true =>
    rw [Bool.true_and]
    refine congrArg (s.items.any ·) (funext fun x => ?_)
    cases hc : compare v x with
    | eq => rw [← b.contains_congr hc, hv, Bool.true_and]
    | lt => exact Bool.and_false _
    | gt => exact Bool.and_false _

theorem insert_restrict (hv : b.contains v) :
    (s.restrict b).insert v = ((s.insert v).1, (s.insert v).2.restrict b) := by
  have hcontains : (s.restrict b).contains v = s.contains v := by
    rw [contains_restrict, hv, Bool.true_and]
  refine Prod.ext (congrArg (!·) hcontains) (ext ?_)
  exact (place_restrict hv s.ascending).symm

theorem outside_insert (hv : b.contains v) : (s.insert v).2.outside b = s.outside b :=
  place_outside hv s.items

theorem addAll_restrict {vs : List α} (hvs : ∀ v ∈ vs, b.contains v) :
    Collection.addAll (s.restrict b) vs =
        ((Collection.addAll s vs).1, (Collection.addAll s vs).2.restrict b) ∧
      (Collection.addAll s vs).2.outside b = s.outside b := by
  change addEach insert (s.restrict b) vs =
    ((addEach insert s vs).1, (addEach insert s vs).2.restrict b) ∧
      (addEach insert s vs).2.outside b = s.outside b
  unfold addEach
  generalize false = modified
  induction vs generalizing s modified with
  | nil => exact ⟨rfl, rfl⟩
  | cons v vs ih =>
    obtain ⟨hv, hvs⟩ := List.forall_mem_cons.1 hvs
    obtain ⟨hrest, houtside⟩ := ih (s := (s.insert v).2) hvs ((s.insert v).1 || modified)
    rw [List.foldl_cons, List.foldl_cons, insert_restrict hv]
    exact ⟨hrest, houtside.trans (outside_insert hv)⟩

/-! ### Removal -/

theorem take_restrict (hv : b.contains v) :
    (s.restrict b).take v = ((s.take v).1, (s.take v).2.restrict b) := by
  refine Prod.ext ?_ (ext ?_)
  · change ((s.items.filter b.contains).find? fun a => compare v a == .eq) =
      s.items.find? fun a => compare v a == .eq
    rw [List.find?_filter]
    refine congrArg (s.items.find? ·) (funext fun x => ?_)
    cases hc : compare v x with
    | eq => simp [← b.contains_congr hc, hv]
    | lt => simp
    | gt => simp
  · change (s.items.filter b.contains).filter _ = (s.items.filter _).filter b.contains
    rw [List.filter_filter, List.filter_filter]
    exact List.filter_congr fun x _ => Bool.and_comm ..

theorem take_restrict_of_not (hv : b.contains v = false) :
    (s.restrict b).take v = (none, s.restrict b) := by
  have hne : ∀ x ∈ (s.restrict b).items, compare v x ≠ .eq := by
    intro x hx hc
    rw [b.contains_congr hc, (List.mem_filter.1 hx).2] at hv
    exact absurd hv (by simp)
  refine Prod.ext (List.find?_eq_none.2 fun x hx => ?_) (filter_eq_self fun x hx => ?_)
  · simp [hne x hx]
  · simp [hne x hx]

theorem outside_take (hv : b.contains v) : (s.take v).2.outside b = s.outside b := by
  change (s.items.filter fun a => compare v a != .eq).filter _ = s.items.filter _
  rw [List.filter_filter]
  refine List.filter_congr ?_
  intro x _
  cases hc : compare v x with
  | eq => simp [← b.contains_congr hc, hv]
  | lt => simp
  | gt => simp

omit [Std.TransOrd α] in
theorem retain_restrict (keep : α → Bool) :
    (s.restrict b).retain keep =
      ((s.retain (outsideOr b keep)).1, (s.retain (outsideOr b keep)).2.restrict b) := by
  refine Prod.ext ?_ (ext ?_)
  · change (((s.items.filter b.contains).filter keep).length !=
        (s.items.filter b.contains).length) =
      ((s.items.filter (outsideOr b keep)).length != s.items.length)
    rw [SubRange.length_filter_bne, SubRange.length_filter_bne, List.any_filter]
    refine congrArg (s.items.any ·) (funext fun x => ?_)
    simp [outsideOr]
  · change (s.items.filter b.contains).filter keep =
      (s.items.filter (outsideOr b keep)).filter b.contains
    rw [List.filter_filter, List.filter_filter]
    refine List.filter_congr ?_
    intro x _
    cases hx : b.contains x <;> simp [outsideOr, hx]

omit [Std.TransOrd α] in
theorem outside_retain (keep : α → Bool) :
    (s.retain (outsideOr b keep)).2.outside b = s.outside b := by
  change (s.items.filter (outsideOr b keep)).filter _ = s.items.filter _
  rw [List.filter_filter]
  refine List.filter_congr ?_
  intro x _
  cases hx : b.contains x <;> simp [outsideOr, hx]

omit [Std.TransOrd α] in
theorem retain_false (s : SortedSet α) :
    s.retain (fun _ => false) = (s.items.length != 0, empty) := by
  refine Prod.ext ?_ (ext ?_)
  · change ((s.items.filter fun _ => false).length != s.items.length) = _
    rw [SubRange.length_filter_bne]
    cases s.items <;> simp
  · exact List.filter_eq_nil_iff.2 fun _ _ => Bool.false_ne_true

/-! ### Mutations -/

/-- A filter of the range is the filter of the restricted set. -/
theorem retaining_restrict (proposal : Modification α) (completion : Bool → Completion α)
    (keep : α → Bool) :
    Mutation.retaining proposal completion keep (s.restrict b) =
      (Mutation.retaining proposal completion (outsideOr b keep) s).map (·.restrict b) :=
  congrArg (Mutation.ofResult proposal completion .flag) (retain_restrict keep)

/-- What a mutation `f` at the range `b` of a set comes to, and what a mutation `f₀` of the
restricted set comes to: a value out of bounds is turned down, an iteration has no element to take
out, or both make the same change. -/
inductive Restricts (b : Bounds α) (command : Command α) (s : SortedSet α)
    (f f₀ : SortedSet α → Except Error (Mutation (SortedSet α) α)) : Prop
  | turnedDown (hout : command.isWithin b = false) (hf : f s = .error .keyOutOfRange)
  | lacking (hin : command.isWithin b) (hf : f s = .error .noCurrentElement)
      (hf₀ : f₀ (s.restrict b) = .error .noCurrentElement)
  | made {m : Mutation (SortedSet α) α} (hin : command.isWithin b) (hf : f s = .ok m)
      (hf₀ : f₀ (s.restrict b) = .ok (m.map (·.restrict b)))
      (houtside : m.container.outside b = s.outside b)

variable [BEq α]

/-- **A command at a range is the command at the restricted set**, unless it would add a value out
of bounds. -/
theorem rangeMutation?_restrict (b : Bounds α) (command : Command α) (s : SortedSet α) :
    Option.Rel (Restricts b command s) (rangeMutation? b command)
      (Standard.sortedSet.rootMutation? command) := by
  cases command with
  | add v =>
    refine .some ?_
    by_cases hv : b.contains v
    · have hinsert := congrArg (Mutation.ofResult (.add v) (.add v) .flag)
        (insert_restrict (s := s) hv)
      exact .made hv (if_pos hv) (congrArg Except.ok hinsert) (outside_insert hv)
    · exact .turnedDown (Bool.eq_false_iff.2 hv) (if_neg hv)
  | addAll vs =>
    refine .some ?_
    by_cases hvs : vs.all b.contains
    · obtain ⟨hbatch, houtside⟩ := addAll_restrict (s := s) (List.all_eq_true.1 hvs)
      have hadd := congrArg (Mutation.ofResult (.addAll vs) (.addAll vs) .flag) hbatch
      exact .made hvs (if_pos hvs) (congrArg Except.ok hadd) houtside
    · exact .turnedDown (Bool.eq_false_iff.2 hvs) (if_neg hvs)
  | remove v =>
    refine .some ?_
    by_cases hv : b.contains v
    · have htake := congrArg (Mutation.ofResult (.remove v) (.remove v) (.flag ·.isSome))
        (take_restrict (s := s) hv)
      exact .made rfl (congrArg Except.ok (if_pos hv)) (congrArg Except.ok htake) (outside_take hv)
    · have hnone := congrArg (Mutation.ofResult (.remove v) (.remove v) (.flag ·.isSome))
        (take_restrict_of_not (s := s) (Bool.eq_false_iff.2 hv))
      exact .made rfl (congrArg Except.ok (if_neg hv)) (congrArg Except.ok hnone) rfl
  | removeAll vs =>
    exact .some (.made rfl rfl (congrArg Except.ok (retaining_restrict ..)) (outside_retain _))
  | retainAll vs =>
    exact .some (.made rfl rfl (congrArg Except.ok (retaining_restrict ..)) (outside_retain _))
  | clear =>
    have hclear := congrArg (Mutation.ofResult (α := α) .clear .clear .flag)
      ((retain_false (s.restrict b)).symm.trans (retain_restrict fun _ => false))
    exact .some (.made rfl rfl (congrArg Except.ok hclear) (outside_retain _))
  | _ => exact .none

/-- **A removal by an iteration** within the bounds is that of the restricted set. -/
theorem iterationMutation?_restrict {b : Bounds α} {current : Option (Nat × α)}
    (hcurrent : ∀ i v, current = some (i, v) → b.contains v) (command : Command α)
    (s : SortedSet α) :
    Option.Rel (Restricts b command s) (Standard.sortedSet.iterationMutation? current command)
      (Standard.sortedSet.iterationMutation? current command) := by
  cases command with
  | removeLast =>
    refine .some ?_
    cases current with
    | none => exact .lacking rfl rfl rfl
    | some p =>
      obtain ⟨i, v⟩ := p
      have hv := hcurrent i v rfl
      have htake := congrArg (Mutation.ofResult (.removeIterated i v)
        (fun removed => .removeIterated i (removed.getD v)) (fun _ => .flag true))
        (take_restrict (s := s) hv)
      exact .made rfl rfl (congrArg Except.ok htake) (outside_take hv)
  | _ => exact .none

end SortedSet

/-! ### Walks that remove -/

namespace SubRange

variable {s : SortedSet α} {keep : α → Bool}

/-- A sweep with enough fuel comes to the end of its walk. -/
theorem sweeps_sweep (fuel : Nat) (cur : ResumingCursor α) (s : SortedSet α)
    (hfuel : (s.items.filter cur.rest.contains).length < fuel) :
    Sweeps keep cur s (sweep keep fuel cur s).1 (sweep keep fuel cur s).2 := by
  refine walk_induct keep (motive := fun fuel cur s =>
    Sweeps keep cur s (sweep keep fuel cur s).1 (sweep keep fuel cur s).2) ?_ ?_ ?_ fuel cur s hfuel
  · intro fuel cur s _ hnext
    simp only [sweep, hnext]
    exact .done hnext
  · intro fuel cur s v l _ _ hk hnext ih
    simp only [sweep, hnext, if_pos hk]
    exact .kept hnext hk ih
  · intro fuel cur cur' s s' v l _ _ hk hnext hremove _ ih
    simp only [sweep, hnext, if_neg hk, hremove]
    exact .removed hnext hk hremove ih

/-- **A walk over a range comes to its end.** -/
theorem sweeps_retain (s : SortedSet α) (b : Bounds α) (keep : α → Bool) :
    Sweeps keep (s.cursorWithin b) s
      (retain (⟨s, b⟩ : SubRange (SortedSet α) α) keep).1
      (retain (⟨s, b⟩ : SubRange (SortedSet α) α) keep).2 :=
  sweeps_sweep _ _ s (Nat.lt_succ_of_le (List.length_filter_le ..))

end SubRange

end WatchedContainers
