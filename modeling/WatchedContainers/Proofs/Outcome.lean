import WatchedContainers.Proofs.Accounts
import WatchedContainers.Proofs.LoyalRun
import WatchedContainers.Proofs.Reentrance
import WatchedContainers.Watched.Outcome

/-!
# Genuine outcomes

The flag of a report comes from many places: a container says whether it added, found or filtered
something, a batch is empty or not, a walk over a range removed something.  It is the same truth
everywhere.

* `Standard.Shows`: a flag tells exactly whether a container changed, and with it its size.
* `Standard.outcome_of_mutation`: **every mutation that is reported** shows what it did, or replaces
  one element, or changes a number of copies.
* `Standard.run_genuine`: **every message of every run under loyal parties tells the truth**.
-/

namespace WatchedContainers

variable {ρ σ C κ α : Type}

/-! ### Flags -/

/-- The flag is set if the container has another size than before, and otherwise the container is
what it was. -/
structure Standard.Shows (k : Standard α C κ) (c : C) (flag : Bool) (c' : C) : Prop where
  same : flag = false → c' = c
  changed : flag = true → k.size c' ≠ k.size c

/-- A batch is added with the flag set if and only if one of its elements was. -/
theorem addEach_shows (size : C → Nat) {add : C → α → Bool × C}
    (hsame : ∀ c v, (add c v).1 = false → (add c v).2 = c)
    (hgrows : ∀ c v, (add c v).1 = true → size c < size (add c v).2) (c : C) (vs : List α) :
    ((addEach add c vs).1 = false → (addEach add c vs).2 = c) ∧
      ((addEach add c vs).1 = true → size c < size (addEach add c vs).2) := by
  have hle : ∀ c v, size c ≤ size (add c v).2 := by
    intro c v
    cases hflag : (add c v).1 with
    | false => exact Nat.le_of_eq (congrArg size (hsame c v hflag).symm)
    | true => exact Nat.le_of_lt (hgrows c v hflag)
  induction vs using List.reverseRecOn with
  | nil => exact ⟨fun _ => rfl, nofun⟩
  | append_singleton vs v ih =>
    obtain ⟨ihsame, ihgrows⟩ := ih
    rw [addEach_concat]
    constructor
    · intro hflag
      obtain ⟨hlast, hbefore⟩ := Bool.or_eq_false_iff.1 hflag
      simp only
      rw [hsame _ v hlast, ihsame hbefore]
    · intro hflag
      have hbefore := size_le_addEach hle c vs
      rcases Bool.or_eq_true_iff.1 hflag with hlast | hearlier
      · exact Nat.lt_of_le_of_lt hbefore (hgrows _ v hlast)
      · exact Nat.lt_of_lt_of_le (ihgrows hearlier) (hle _ v)

theorem filter_length_shows (keep : α → Bool) (l : List α) :
    (((l.filter keep).length != l.length) = false → l.filter keep = l) ∧
      (((l.filter keep).length != l.length) = true → (l.filter keep).length ≠ l.length) := by
  constructor
  · intro h
    have hlength : (l.filter keep).length = l.length := by simpa using h
    exact List.filter_eq_self.2 (List.length_filter_eq_length_iff.1 hlength)
  · intro h
    simpa using h

theorem length_eraseIdx_ne {l : List α} {i : Nat} (h : l[i]?.isSome) :
    (l.eraseIdx i).length ≠ l.length := by
  have hi : i < l.length := by simpa using h
  rw [List.length_eraseIdx_of_lt hi]
  omega

/-- A value that is in the list already is placed nowhere. -/
theorem SortedSet.place_shows [Ord α] [Std.TransOrd α] (v : α) {l : List α}
    (hl : l.Pairwise Precedes) :
    ((l.any fun a => compare v a == .eq) = true → place v l = l) ∧
      ((l.any fun a => compare v a == .eq) = false → (place v l).length = l.length + 1) := by
  induction l with
  | nil => exact ⟨by simp, fun _ => rfl⟩
  | cons a rest ih =>
    obtain ⟨ha, hrest⟩ := List.pairwise_cons.1 hl
    obtain ⟨ihsame, ihgrows⟩ := ih hrest
    unfold place
    cases hcmp : compare v a with
    | lt =>
      -- what comes after `a` is greater than `v`, too
      have hnone : ((a :: rest).any fun x => compare v x == .eq) = false := by
        rw [List.any_eq_false]
        intro x hx
        rcases List.mem_cons.1 hx with rfl | hx
        · simp [hcmp]
        · simp [Std.TransCmp.lt_trans hcmp (ha x hx)]
      exact ⟨fun h => absurd (hnone.symm.trans h) (by simp), fun _ => rfl⟩
    | eq => exact ⟨fun _ => rfl, fun h => by simp [hcmp] at h⟩
    | gt =>
      have hany : ((a :: rest).any fun x => compare v x == .eq) =
          rest.any fun x => compare v x == .eq := by
        rw [List.any_cons, hcmp]
        rfl
      rw [hany]
      exact ⟨fun h => congrArg (a :: ·) (ihsame h), fun h => congrArg (· + 1) (ihgrows h)⟩

theorem UniqueSet.ext [BEq α] {s t : UniqueSet α} (h : s.items = t.items) : s = t := by
  cases s
  cases t
  cases h
  rfl

namespace CountedBag

variable [Ord α]

omit [Ord α] in
theorem total_filter_lt {keep : α × Nat → Bool} {l : List (α × Nat)} (hpos : ∀ p ∈ l, 0 < p.2)
    (hlength : (l.filter keep).length ≠ l.length) : total (l.filter keep) < total l := by
  induction l with
  | nil => exact absurd rfl hlength
  | cons p rest ih =>
    obtain ⟨hp, hrest⟩ := List.forall_mem_cons.1 hpos
    rw [List.filter_cons] at hlength ⊢
    split at hlength
    next hk =>
      rw [if_pos hk, total_cons, total_cons]
      have hlt := ih hrest (by simpa using hlength)
      omega
    next hk =>
      rw [if_neg hk, total_cons]
      have hle := total_filter_le keep rest
      omega

theorem ext {b b' : CountedBag α} (hcounts : b'.counts = b.counts)
    (hreports : b'.reportsAdded = b.reportsAdded) : b' = b := by
  cases b
  cases b'
  cases hcounts
  cases hreports
  rfl

theorem counts_eq_nil {b : CountedBag α} (h : b.size = 0) : b.counts = [] := by
  cases hcounts : b.counts with
  | nil => rfl
  | cons p rest =>
    have hp := b.positive p (by rw [hcounts]; exact List.mem_cons_self)
    have htotal : b.size = p.2 + total rest := by
      rw [size, hcounts]
      rfl
    omega

end CountedBag

namespace Standard

variable (k : Standard α C κ) (c : C)

theorem size_eq_length : k.size c = (k.contents c).length := by
  cases k with
  | sequence | queue | uniqueSet | sortedSet => rfl
  | bag => exact c.size_eq_length

theorem add_grows (v : α) :
    ((let _ := k.collection; (Collection.add c v).1) = false →
        (let _ := k.collection; (Collection.add c v).2) = c) ∧
      ((let _ := k.collection; (Collection.add c v).1) = true →
        k.size c < k.size (let _ := k.collection; (Collection.add c v).2)) := by
  cases k with
  | sequence =>
    refine ⟨fun h => (by cases h), fun _ => ?_⟩
    change c.items.length < (c.items ++ [v]).length
    simp
  | queue =>
    refine ⟨fun h => (by cases h), fun _ => ?_⟩
    change c.items.length < (c.items ++ [v]).length
    simp
  | uniqueSet =>
    change ((c.insert v).1 = false → (c.insert v).2 = c) ∧
      ((c.insert v).1 = true → c.items.length < (c.insert v).2.items.length)
    unfold UniqueSet.insert
    split
    · refine ⟨fun h => (by cases h), fun _ => ?_⟩
      change c.items.length < (c.items ++ [v]).length
      simp
    · exact ⟨fun _ => rfl, fun h => (by cases h)⟩
  | sortedSet =>
    obtain ⟨hsame, hgrows⟩ := SortedSet.place_shows v c.ascending
    change ((!c.contains v) = false → _) ∧
      ((!c.contains v) = true → c.items.length < (SortedSet.place v c.items).length)
    refine ⟨fun h => ?_, fun h => ?_⟩
    · have hcontains : c.contains v = true := by simpa using h
      exact SortedSet.ext (hsame hcontains)
    · have hcontains : c.contains v = false := by simpa using h
      rw [hgrows hcontains]
      exact Nat.lt_succ_self _
  | bag =>
    refine ⟨fun h => (by cases h), fun _ => ?_⟩
    change CountedBag.total c.counts < CountedBag.total (CountedBag.raise v 1 c.counts)
    rw [CountedBag.total_raise]
    exact Nat.lt_succ_self _

theorem shows_add (v : α) :
    k.Shows c (let _ := k.collection; (Collection.add c v).1)
      (let _ := k.collection; (Collection.add c v).2) :=
  ⟨(k.add_grows c v).1, fun h => Nat.ne_of_gt ((k.add_grows c v).2 h)⟩

theorem shows_addAll (vs : List α) :
    k.Shows c (let _ := k.collection; (Collection.addAll c vs).1)
      (let _ := k.collection; (Collection.addAll c vs).2) := by
  have hadd := k.add_grows
  have heach : ∀ add : C → α → Bool × C, (add = let _ := k.collection; Collection.add) →
      k.Shows c (addEach add c vs).1 (addEach add c vs).2 := by
    rintro add rfl
    obtain ⟨hsame, hgrows⟩ := addEach_shows k.size (fun c v => (hadd c v).1)
      (fun c v => (hadd c v).2) c vs
    exact ⟨hsame, fun h => Nat.ne_of_gt (hgrows h)⟩
  cases k with
  | sequence =>
    refine ⟨fun h => ?_, fun h => ?_⟩
    · obtain rfl : vs = [] := by simpa [Collection.addAll] using h
      simp [Collection.addAll]
    · have hne : vs ≠ [] := by simpa [Collection.addAll] using h
      change (c.items ++ vs).length ≠ c.items.length
      simpa using hne
  | queue => exact heach _ rfl
  | uniqueSet => exact heach _ rfl
  | sortedSet => exact heach _ rfl
  | bag => exact heach _ rfl

theorem shows_remove (v : α) :
    k.Shows c (let _ := k.collection; (Collection.remove c v).1).isSome
      (let _ := k.collection; (Collection.remove c v).2) := by
  refine ⟨fun h => k.remove_of_none (by simpa using h), fun h => ?_⟩
  cases k with
  | sequence =>
    change (c.remove v).1.isSome at h
    change (c.remove v).2.items.length ≠ c.items.length
    unfold Sequence.remove at h ⊢
    cases hi : c.items.findIdx? (· == v) with
    | none => simp [hi] at h
    | some i =>
      rw [hi] at h
      exact length_eraseIdx_ne h
  | queue =>
    change (c.remove v).1.isSome at h
    change (c.remove v).2.items.length ≠ c.items.length
    unfold Queue.remove at h ⊢
    cases hi : c.items.findIdx? (· == v) with
    | none => simp [hi] at h
    | some i =>
      rw [hi] at h
      exact length_eraseIdx_ne h
  | uniqueSet =>
    have hsome : (c.items.find? (· == v)).isSome := h
    obtain ⟨a, ha, hav⟩ := List.find?_isSome.1 hsome
    exact Nat.ne_of_lt (List.length_filter_lt_length_iff_exists.2 ⟨a, ha, by simp [hav]⟩)
  | sortedSet =>
    have hsome : (c.items.find? fun a => compare v a == .eq).isSome := h
    obtain ⟨a, ha, hav⟩ := List.find?_isSome.1 hsome
    have hne : ¬ (compare v a != .eq) := by simpa using hav
    exact Nat.ne_of_lt (List.length_filter_lt_length_iff_exists.2 ⟨a, ha, hne⟩)
  | bag =>
    change (c.remove v).1.isSome at h
    change (c.remove v).2.size ≠ c.size
    unfold CountedBag.remove at h ⊢
    cases hentry : c.entry? v with
    | none => simp [hentry] at h
    | some p =>
      have hsize := CountedBag.size_lowered hentry
      simp only
      omega

theorem shows_retain (keep : α → Bool) :
    k.Shows c (let _ := k.collection; (Collection.retain c keep).1)
      (let _ := k.collection; (Collection.retain c keep).2) := by
  cases k with
  | sequence =>
    obtain ⟨hsame, hchanged⟩ := filter_length_shows keep c.items
    exact ⟨fun h => congrArg Sequence.mk (hsame h), hchanged⟩
  | queue =>
    obtain ⟨hsame, hchanged⟩ := filter_length_shows keep c.items
    exact ⟨fun h => congrArg Queue.mk (hsame h), hchanged⟩
  | uniqueSet =>
    obtain ⟨hsame, hchanged⟩ := filter_length_shows keep c.items
    exact ⟨fun h => UniqueSet.ext (hsame h), hchanged⟩
  | sortedSet =>
    obtain ⟨hsame, hchanged⟩ := filter_length_shows keep c.items
    exact ⟨fun h => SortedSet.ext (hsame h), hchanged⟩
  | bag =>
    obtain ⟨hsame, hchanged⟩ := filter_length_shows (fun p => keep p.1) c.counts
    refine ⟨fun h => CountedBag.ext (hsame h) rfl, fun h => ?_⟩
    exact Nat.ne_of_lt (CountedBag.total_filter_lt c.positive (hchanged h))

theorem shows_clear :
    k.Shows c (k.size c != 0) (let _ := k.collection; Collection.clear c) := by
  have hzero := k.size_clear c
  refine ⟨fun h => ?_, fun h => ?_⟩
  · have hsize : k.size c = 0 := by simpa using h
    cases k with
    | sequence => exact congrArg Sequence.mk (List.length_eq_zero_iff.1 hsize).symm
    | queue => exact congrArg Queue.mk (List.length_eq_zero_iff.1 hsize).symm
    | uniqueSet => exact UniqueSet.ext (List.length_eq_zero_iff.1 hsize).symm
    | sortedSet => exact SortedSet.ext (List.length_eq_zero_iff.1 hsize).symm
    | bag => exact CountedBag.ext (CountedBag.counts_eq_nil hsize).symm rfl
  · rw [hzero]
    exact (bne_iff_ne.1 h).symm

end Standard

/-! ### Mutations that are reported -/

/-- The kinds whose flag is not about the number of elements. -/
def Kind.standsApart : Kind → Bool
  | .setIndexed | .setIterated | .addCopies | .removeCopies => true
  | _ => false

/-- What a reported mutation of the container `c` did.  Its positions are counted from `offset`. -/
inductive Mutation.Effect [ObjectIdentity α] (k : Standard α C κ) (offset : Nat)
    (command : Command α) (c : C) (m : Mutation C α) : Prop
  | shown (hkind : m.completion.modification.kind.standsApart = false)
      (hshows : k.Shows c m.completion.modified m.container)
      (hresponse : m.response.affirms = m.completion.modified)
  | replaced (i : Nat) (stored previous : α)
      (hcompletion : m.completion = .setIndexed i stored previous ∨
        m.completion = .setIterated i stored previous)
      (hbefore : (k.contents c)[i + offset]? = some previous)
      (hafter : k.contents m.container = (k.contents c).set (i + offset) stored)
  | copied (answer : Bool) (hkind : m.completion.modification.kind = .addCopies ∨
        m.completion.modification.kind = .removeCopies)
      (hmodified : m.completion.modified = true)
      (hanswer : k.copiesAnswer? command c = some answer) (hresponse : m.response = .flag answer)

section Effects

variable [ObjectIdentity α] {offset : Nat} {command : Command α}

theorem Standard.effect_of_collection (k : Standard α C κ) (command : Command α) {c : C}
    {f : C → Mutation C α}
    (hf : (let _ := k.collection; let _ := k.equality; Collection.mutation? command) = some f)
    (hfound : (f c).completion.absent? = none) : (f c).Effect k offset command c := by
  cases command with
  | add v =>
    obtain rfl := Option.some.inj hf
    exact .shown rfl (k.shows_add c v) rfl
  | addAll vs =>
    obtain rfl := Option.some.inj hf
    exact .shown rfl (k.shows_addAll c vs) rfl
  | remove v =>
    obtain rfl := Option.some.inj hf
    have hshows := k.shows_remove c v
    have hsome : (let _ := k.collection; (Collection.remove c v).1).isSome = true := by
      cases hremoved : (let _ := k.collection; (Collection.remove c v).1) with
      | none =>
        simp only at hfound hremoved
        simp [hremoved, Completion.absent?] at hfound
      | some a => rfl
    rw [hsome] at hshows
    exact .shown rfl hshows hsome
  | removeAll vs =>
    obtain rfl := Option.some.inj hf
    exact .shown rfl (k.shows_retain c _) rfl
  | retainAll vs =>
    obtain rfl := Option.some.inj hf
    exact .shown rfl (k.shows_retain c _) rfl
  | clear =>
    obtain rfl := Option.some.inj hf
    exact .shown rfl (k.shows_clear c) rfl
  | _ => simp [Collection.mutation?] at hf

theorem Queue.effect_of_buffered [BEq α] {q : Queue α} {f : Queue α → Mutation (Queue α) α}
    (hf : Buffered.mutation? command = some f) (hfound : (f q).completion.absent? = none) :
    (f q).Effect .queue offset command q := by
  cases command with
  | removeNext =>
    obtain rfl := Option.some.inj hf
    obtain ⟨items⟩ := q
    cases items with
    | nil => simp [Buffered.removeNext, Completion.absent?] at hfound
    | cons a rest =>
      refine .shown rfl ⟨fun h => (by cases h), fun _ => ?_⟩ rfl
      change rest.length ≠ (a :: rest).length
      simp
  | _ => simp [Buffered.mutation?] at hf

theorem CountedBag.effect_of_counted [BEq α] [Ord α] [Std.TransOrd α] {b : CountedBag α}
    {f : CountedBag α → Mutation (CountedBag α) α} (hf : Counted.mutation? command = some f) :
    (f b).Effect .bag offset command b := by
  cases command with
  | addCopies v n =>
    obtain rfl := Option.some.inj hf
    exact .copied _ (.inl rfl) rfl rfl rfl
  | removeCopies v n =>
    obtain rfl := Option.some.inj hf
    exact .copied _ (.inr rfl) rfl rfl rfl
  | _ => simp [Counted.mutation?] at hf

namespace Sequence

variable [BEq α] {s : Sequence α} {m : Mutation (Sequence α) α}
  {f : Sequence α → Except Error (Mutation (Sequence α) α)}

omit [ObjectIdentity α] in
theorem shows_of_length {t : Sequence α} (h : t.items.length ≠ s.items.length) :
    Standard.sequence.Shows s true t :=
  ⟨nofun, fun _ => h⟩

theorem effect_of_mutation (hf : mutation? command = some f) (hm : f s = .ok m)
    (hfound : m.completion.absent? = none) : m.Effect .sequence 0 command s := by
  cases command with
  | addAt i v =>
    obtain rfl := Option.some.inj hf
    by_cases hi : i ≤ s.items.length
    · simp only [if_pos hi] at hm
      obtain rfl := Except.ok.inj hm
      refine .shown rfl (shows_of_length ?_) rfl
      rw [List.length_insertIdx_of_le_length hi]
      exact Nat.succ_ne_self _
    · simp [if_neg hi] at hm
  | addAllAt i vs =>
    obtain rfl := Option.some.inj hf
    by_cases hi : i ≤ s.items.length
    · simp only [if_pos hi] at hm
      obtain rfl := Except.ok.inj hm
      refine .shown rfl ⟨fun h => ?_, fun h => ?_⟩ rfl
      · obtain rfl : vs = [] := by simpa [Completion.modified] using h
        refine congrArg Sequence.mk ?_
        rw [List.append_nil, List.take_append_drop]
      · have hvs : vs ≠ [] := by simpa [Completion.modified] using h
        have hpos := List.length_pos_iff.2 hvs
        change (s.items.take i ++ vs ++ s.items.drop i).length ≠ s.items.length
        simp only [List.length_append, List.length_take, List.length_drop]
        omega
    · simp [if_neg hi] at hm
  | removeAt i =>
    obtain rfl := Option.some.inj hf
    cases hp : s.items[i]? with
    | none => simp [hp] at hm
    | some p =>
      simp only [hp] at hm
      obtain rfl := Except.ok.inj hm
      exact .shown rfl (shows_of_length (length_eraseIdx_ne (by rw [hp]; rfl))) rfl
  | set i v =>
    obtain rfl := Option.some.inj hf
    cases hp : s.items[i]? with
    | none => simp [hp] at hm
    | some p =>
      simp only [hp] at hm
      obtain rfl := Except.ok.inj hm
      exact .replaced i v p (.inl rfl) hp rfl
  | add | addAll | remove | removeAll | retainAll | clear =>
    have hf' := (mutation?_of_not_positional rfl).symm.trans hf
    obtain ⟨g, hg, rfl⟩ := Option.map_eq_some_iff.1 hf'
    obtain rfl := Except.ok.inj hm
    exact Standard.sequence.effect_of_collection _ hg hfound
  | _ => simp [mutation?, Collection.mutation?] at hf

theorem effect_within {start tail : Nat} (hin : start + tail ≤ s.items.length)
    (h : ∀ m₀, f ⟨s.window start tail⟩ = .ok m₀ → m₀.completion.absent? = none →
      m₀.Effect .sequence 0 command ⟨s.window start tail⟩)
    (hm : within start tail f s = .ok m) (hfound : m.completion.absent? = none) :
    m.Effect .sequence start command s := by
  obtain ⟨pre, mid, suf, rfl, rfl, rfl⟩ := exists_middle s start tail hin
  obtain ⟨m₀, hm₀, rfl⟩ := exists_of_within hm
  have hcontainer : (m₀.map fun t => splice pre.length suf.length ⟨pre ++ mid ++ suf⟩ t.items) =
      m₀.map fun t => ⟨pre ++ t.items ++ suf⟩ := by
    refine congrArg (m₀.map ·) (funext fun t => ?_)
    rw [splice_middle]
  rw [hcontainer]
  have heffect := h m₀ hm₀ hfound
  rw [window_middle] at heffect
  cases heffect with
  | shown hkind hshows hresponse =>
    refine .shown hkind ⟨fun hflag => ?_, fun hflag => ?_⟩ hresponse
    · have hsame := hshows.same hflag
      change (⟨pre ++ m₀.container.items ++ suf⟩ : Sequence α) = _
      rw [hsame]
    · have hchanged : m₀.container.items.length ≠ mid.length := hshows.changed hflag
      change (pre ++ m₀.container.items ++ suf).length ≠ (pre ++ mid ++ suf).length
      simp only [List.length_append]
      omega
  | replaced i stored previous hcompletion hbefore hafter =>
    have hi : i < mid.length := (List.getElem?_eq_some_iff.1 hbefore).1
    refine .replaced i stored previous hcompletion ?_ ?_
    · change (pre ++ mid ++ suf)[i + pre.length]? = _
      rw [Nat.add_comm, getElem?_middle pre mid suf i hi]
      exact hbefore
    · have hitems : m₀.container.items = mid.set i stored := hafter
      change pre ++ m₀.container.items ++ suf = (pre ++ mid ++ suf).set (i + pre.length) stored
      rw [Nat.add_comm, set_middle pre mid suf i stored hi, hitems]
  | copied answer hkind hmodified hanswer hresponse => cases hanswer

end Sequence

theorem ListIterator.effect_of_mutation [BEq α] {cursor : Nat} {last : Option Nat}
    {s : Sequence α} {m : Mutation (Sequence α) α}
    {f : Sequence α → Except Error (Mutation (Sequence α) α)}
    (hcursor : cursor ≤ s.items.length) (hf : mutation? cursor last command = some f)
    (hm : f s = .ok m) : m.Effect .sequence 0 command s := by
  cases command with
  | removeLast =>
    obtain rfl := Option.some.inj hf
    cases hl : last.bind fun i => s.items[i]?.map (i, ·) with
    | none => simp [hl] at hm
    | some p =>
      simp only [hl] at hm
      obtain rfl := Except.ok.inj hm
      obtain ⟨i, -, hp⟩ := Option.bind_eq_some_iff.1 hl
      obtain ⟨v, hv, rfl⟩ := Option.map_eq_some_iff.1 hp
      exact .shown rfl (Sequence.shows_of_length (length_eraseIdx_ne (by rw [hv]; rfl))) rfl
  | setLast v =>
    obtain rfl := Option.some.inj hf
    cases hl : last.bind fun i => s.items[i]?.map (i, ·) with
    | none => simp [hl] at hm
    | some p =>
      simp only [hl] at hm
      obtain rfl := Except.ok.inj hm
      obtain ⟨i, -, hp⟩ := Option.bind_eq_some_iff.1 hl
      obtain ⟨previous, hprevious, rfl⟩ := Option.map_eq_some_iff.1 hp
      exact .replaced i v previous (.inr rfl) hprevious rfl
  | insert v =>
    obtain rfl := Option.some.inj hf
    obtain rfl := Except.ok.inj hm
    refine .shown rfl (Sequence.shows_of_length ?_) rfl
    rw [List.length_insertIdx_of_le_length hcursor]
    exact Nat.succ_ne_self _
  | _ => simp [mutation?] at hf

theorem SortedSet.effect_of_range [BEq α] [Ord α] [Std.TransOrd α] {b : Bounds α}
    {s : SortedSet α} {m : Mutation (SortedSet α) α}
    {f : SortedSet α → Except Error (Mutation (SortedSet α) α)}
    (hf : rangeMutation? b command = some f) (hm : f s = .ok m)
    (hfound : m.completion.absent? = none) : m.Effect .sortedSet offset command s := by
  cases command with
  | add v =>
    obtain rfl := Option.some.inj hf
    simp only at hm
    split at hm
    · obtain rfl := Except.ok.inj hm
      exact .shown rfl (Standard.sortedSet.shows_add s v) rfl
    · simp at hm
  | addAll vs =>
    obtain rfl := Option.some.inj hf
    simp only at hm
    split at hm
    · obtain rfl := Except.ok.inj hm
      exact .shown rfl (Standard.sortedSet.shows_addAll s vs) rfl
    · simp at hm
  | remove v =>
    obtain rfl := Option.some.inj hf
    obtain rfl := Except.ok.inj hm
    split at hfound
    next hin =>
      rw [if_pos hin]
      exact Standard.sortedSet.effect_of_collection (.remove v) rfl hfound
    next => simp [Completion.absent?] at hfound
  | removeAll | retainAll | clear =>
    obtain rfl := Option.some.inj hf
    obtain rfl := Except.ok.inj hm
    exact .shown rfl (Standard.sortedSet.shows_retain s _) rfl
  | _ => simp [rangeMutation?] at hf

namespace Standard

variable {k : Standard α C κ} {c : C} {frames : List (Frame κ α)}
  {f : C → Except Error (Mutation C α)} {m : Mutation C α}

theorem effect_of_rootMutation (hf : k.rootMutation? command = some f) (hm : f c = .ok m)
    (hfound : m.completion.absent? = none) : m.Effect k 0 command c := by
  cases k with
  | sequence => exact Sequence.effect_of_mutation hf hm hfound
  | queue =>
    obtain ⟨g, hg, rfl⟩ := Option.map_eq_some_iff.1 hf
    obtain rfl := Except.ok.inj hm
    rcases Option.or_eq_some_iff.1 hg with hg | ⟨-, hg⟩
    · exact queue.effect_of_collection _ hg hfound
    · exact Queue.effect_of_buffered hg hfound
  | uniqueSet =>
    obtain ⟨g, hg, rfl⟩ := Option.map_eq_some_iff.1 hf
    obtain rfl := Except.ok.inj hm
    exact uniqueSet.effect_of_collection _ hg hfound
  | sortedSet =>
    obtain ⟨g, hg, rfl⟩ := Option.map_eq_some_iff.1 hf
    obtain rfl := Except.ok.inj hm
    exact sortedSet.effect_of_collection _ hg hfound
  | bag =>
    obtain ⟨g, hg, rfl⟩ := Option.map_eq_some_iff.1 hf
    obtain rfl := Except.ok.inj hm
    rcases Option.or_eq_some_iff.1 hg with hg | ⟨-, hg⟩
    · exact bag.effect_of_collection _ hg hfound
    · exact CountedBag.effect_of_counted hg

/-- A removal at an iterator always takes an element out. -/
theorem InStep.effect {it : Iteration Unit κ α} (h : k.InStep c it)
    (hf : k.iterationMutation? it.current command = some f) (hm : f c = .ok m) :
    m.Effect k offset command c := by
  cases command with
  | removeLast =>
    obtain rfl := Option.some.inj hf
    cases hc : it.current with
    | none => simp [hc] at hm
    | some p =>
      obtain ⟨i, v⟩ := p
      simp only [hc, Except.ok.injEq] at hm
      subst hm
      have hw := h.walks
      rw [hc] at hw
      obtain ⟨-, hsize, -⟩ := hw.erase
      refine .shown rfl ⟨nofun, fun _ => ?_⟩ rfl
      simp only
      omega
  | _ => simp [iterationMutation?] at hf

/-- **Every mutation that is reported** shows what it did, or replaces one element, or changes a
number of copies. -/
theorem effect_of_mutation (h : k.Fits c frames) (hf : k.mutation? frames command = some f)
    (hm : f c = .ok m) (hfound : m.completion.absent? = none) :
    m.Effect k (flanks frames).1 command c := by
  cases frames with
  | nil => exact effect_of_rootMutation (k := k) hf hm hfound
  | cons g rest =>
    cases g with
    | subList v =>
      cases k with
      | sequence =>
        obtain ⟨g, hg, rfl⟩ := Option.map_eq_some_iff.1 hf
        exact Sequence.effect_within h.inside (fun _ => Sequence.effect_of_mutation hg) hm hfound
      | queue | uniqueSet | sortedSet | bag => simp [mutation?] at hf
    | sortedView v =>
      cases k with
      | sortedSet => exact SortedSet.effect_of_range hf hm hfound
      | sequence | queue | uniqueSet | bag => simp [mutation?] at hf
    | iteration it ref =>
      have hit : k.InStep c it := h.front
      cases k <;> exact hit.effect hf hm
    | listIterator it ref =>
      cases k with
      | sequence =>
        obtain ⟨g, hg, rfl⟩ := Option.map_eq_some_iff.1 hf
        have hcursor : it.cursor ≤ (c.window it.segment.start it.segment.tail).length := by
          rw [Sequence.length_window]
          exact h.front.2.cursor_le
        exact Sequence.effect_within h.inside
          (fun _ hm _ => ListIterator.effect_of_mutation hcursor hg hm) hm hfound
      | queue | uniqueSet | sortedSet | bag => simp [mutation?] at hf

end Standard

/-! ### Messages -/

namespace Standard

variable {k : Standard α C κ} {t : Turn C κ α} {e : Event α} {m : Mutation C α}

omit [ObjectIdentity α] in
/-- A flag that shows what became of the size shows what became of the elements. -/
theorem Shows.iff {c c' : C} {flag : Bool} (h : k.Shows c flag c') :
    (flag = true ↔ k.contents c' ≠ k.contents c) ∧ (flag = true ↔ k.size c' ≠ k.size c) := by
  have hsize : k.contents c' = k.contents c → k.size c' = k.size c := by
    intro heq
    rw [size_eq_length, size_eq_length, heq]
  cases hflag : flag with
  | false =>
    rw [h.same hflag]
    simp
  | true =>
    have hchanged := h.changed hflag
    exact ⟨⟨fun _ heq => hchanged (hsize heq), fun _ => rfl⟩, ⟨fun _ => hchanged, fun _ => rfl⟩⟩

/-- **A message that reports a mutation tells the truth** about it. -/
theorem Reported.genuine (h : k.Reported t e command m) : t.Genuine k e := by
  obtain ⟨f, hf, hm⟩ := h.mutation
  obtain ⟨size, rfl⟩ := h.event
  have heffect := effect_of_mutation h.fits hf hm h.found
  have hoffset : t.before.seat.offset = (flanks t.before.frames).1 :=
    h.fits.offset_eq t.before.root
  rw [← hoffset] at heffect
  have hkind : (t.before.seat.after m.completion size (k.size m.container)).kind =
      m.completion.modification.kind := Modification.kind_shift ..
  refine ⟨congrArg (some <| k.size ·) h.after.symm, ?_⟩
  rw [hkind]
  cases heffect with
  | shown hplain hshows hresponse =>
    rw [← h.after] at hshows
    have heffective : t.Effective k (t.before.seat.after m.completion size (k.size m.container)) :=
      ⟨_, _, rfl, h.response, hresponse, hshows.iff.1, hshows.iff.2⟩
    cases hk : m.completion.modification.kind with
    | setIndexed | setIterated | addCopies | removeCopies =>
      rw [hk] at hplain
      cases hplain
    | _ => exact heffective
  | replaced i stored previous hcompletion hbefore hafter =>
    rw [← h.after] at hafter
    obtain ⟨hindex, hsubject, hprevious, hmodified⟩ :
        (m.completion.modification.shift t.before.seat.offset).index? =
            some (i + t.before.seat.offset) ∧
          (m.completion.modification.shift t.before.seat.offset).subject? = some stored ∧
          m.completion.previous? = some previous ∧
          m.completion.modified = !sameObject stored previous := by
      rcases hcompletion with hc | hc
      all_goals
        rw [hc]
        exact ⟨rfl, rfl, rfl, rfl⟩
    have hlt : i + t.before.seat.offset < (k.contents t.before.container).length :=
      (List.getElem?_eq_some_iff.1 hbefore).1
    have hreplacing :
        t.Replacing k (t.before.seat.after m.completion size (k.size m.container)) := by
      refine ⟨_, previous, stored, hindex, hprevious, hsubject, hbefore, hafter, ?_, ?_, ?_⟩
      · rw [hafter, List.getElem?_set_self hlt]
      · change some m.completion.modified = some false ↔ _
        rw [hmodified]
        simp
      · rw [size_eq_length, size_eq_length, hafter, List.length_set]
    rcases hcompletion with hc | hc
    all_goals
      rw [hc] at hreplacing ⊢
      exact hreplacing
  | copied answer hcopies hmodified hanswer hresponse =>
    have hcopying : t.Copying k (t.before.seat.after m.completion size (k.size m.container)) :=
      ⟨congrArg some hmodified, command, answer, h.action, hanswer,
        h.response.trans (congrArg Except.ok hresponse)⟩
    rcases hcopies with hk | hk
    all_goals
      rw [hk]
      exact hcopying

/-- **Every message tells the truth.**  Whatever loyal parties do when they are called, also if they
call the handlers again, every event that is raised after a modification in a run is true of its
turn: it has the size of the container afterwards, and it says that the container changed, as the
caller is told, if and only if the elements are not what they were, if and only if their number is
not.  A replacement is said to have changed nothing if and only if an instance replaced itself, and
a change of copies is always said to have changed something, whatever the bag answers.  The size
beforehand is that of the container if the parties make no proposals of their own. -/
theorem run_genuine (k : Standard α C κ) {obs : Observers ρ σ α} {c : Watched C}
    {w : RecordedWorld ρ σ α} (hl : obs.Loyal c.handler)
    (hc : w.shadow.Presides c.handler c.id) (actions : List (Action α)) :
    ∀ t ∈ (k.recordedRun obs actions c.session w).turns, ∀ e, .told e ∈ t.heard →
      t.Genuine k e ∧ (obs.Discreet c.handler → e.preSize = k.size t.before.container) := by
  intro t ht e he
  obtain ⟨command, m, hreported⟩ := reported_recordedRun hl (k.sound_session hc) actions t ht e he
  refine ⟨hreported.genuine, fun hd => ?_⟩
  have hbalances := ((links_recordedRun hd (k.sound_session hc) actions).turn ht).balances
  exact (hbalances.accounts _ he).1

end Standard

end Effects

namespace Standard

/-- A listener of a sorted set asks, whenever it is asked, whether the set of four may be cleared.
An element is added through a view, another one is there already, and one is removed. -/
theorem run_genuine_reentrant :
    let k : Standard Int (SortedSet Int) (ResumingCursor Int) := .sortedSet
    let obs : Observers Unit (List (Trace Int)) Int := Observers.scribe.proposing .clear 4
    let w : RecordedWorld Unit (List (Trace Int)) Int :=
      { nextId := 2
        handlers := #[{ role := .root ⟨0⟩, binding := some ⟨⟨1⟩, k.capabilities⟩ }]
        hooks := #[.policy ()]
        outside := ([], []) }
    let turns := (k.recordedRun obs [.openFrame (.range ⟨.included 2, .unbounded⟩), .command (.add 5),
      .command (.add 3), .close, .command (.remove 1)]
      (Watched.alone ⟨[1, 2, 3], by unfold Precedes; decide⟩).session w).turns
    (turns.flatMap fun t => (t.heard.filterMap Heard.told?).map (·.modified?)) =
        [some true, some false, some true] ∧
      ∀ t ∈ turns, ∀ e, .told e ∈ t.heard → t.Genuine k e := by
  intro k obs w turns
  have hl : obs.Loyal ⟨0⟩ := ((Observers.reenters_scribe 0).proposing .clear 4).recalling.loyal
  have hgenuine := k.run_genuine (c := Watched.alone ⟨[1, 2, 3], by unfold Precedes; decide⟩) (w := w) hl
    (World.Hosts.presides_shadow ⟨rfl, rfl, rfl⟩ rfl)
  exact ⟨by decide +kernel, fun t ht e he => (hgenuine _ t ht e he).1⟩

/-- There the addition of an element is told as a change at which the set had four elements before
and after, although it had three before. -/
theorem run_conceals_growth :
    let k : Standard Int (SortedSet Int) (ResumingCursor Int) := .sortedSet
    let obs : Observers Unit (List (Trace Int)) Int := Observers.scribe.proposing .clear 4
    let w : RecordedWorld Unit (List (Trace Int)) Int :=
      { nextId := 2
        handlers := #[{ role := .root ⟨0⟩, binding := some ⟨⟨1⟩, k.capabilities⟩ }]
        hooks := #[.policy ()]
        outside := ([], []) }
    let turns := (k.recordedRun obs [.command (.add 5)]
      (Watched.alone ⟨[1, 2, 3], by unfold Precedes; decide⟩).session w).turns
    (turns.map fun t => (k.contents t.before.container, k.contents t.after.container)) =
        [([1, 2, 3], [1, 2, 3, 5])] ∧
      (turns.flatMap fun t => (t.heard.filterMap Heard.told?).map fun e =>
        (e.modified?, e.preSize, e.postSize?)) = [(some true, 4, some 4)] := by
  decide +kernel

end Standard

end WatchedContainers
