import WatchedContainers.Proofs.Announcement
import WatchedContainers.Proofs.Counting
import WatchedContainers.Proofs.Elementwise
import WatchedContainers.Watched.Replay

/-!
# Replays by their elements

A mirror follows a container by the operations of its own (`Standard.run_mirrored`).  What such a
step does to the elements does not depend on them.

* `Standard.redoes_replay`: **a replay appends, inserts, erases, replaces, filters and counts as its
  modification says**, for every modification that the container announces.
* `Standard.run_redone`: **so does every turn that is told of**, in every run.
-/

namespace WatchedContainers

variable {C κ α : Type}

/-! ### Lists -/

theorem Sequence.remove_eq [BEq α] (s : Sequence α) (v : α) :
    s.remove v = (s.items.find? (· == v), ⟨s.items.eraseP (· == v)⟩) := by
  rw [List.eraseP_eq_eraseIdx, List.find?_eq_bind_findIdx?_getElem?, remove]
  cases s.items.findIdx? (· == v) with
  | none => rfl
  | some i => rfl

theorem Queue.remove_eq [BEq α] (q : Queue α) (v : α) :
    q.remove v = (q.items.find? (· == v), ⟨q.items.eraseP (· == v)⟩) := by
  rw [List.eraseP_eq_eraseIdx, List.find?_eq_bind_findIdx?_getElem?, remove]
  cases q.items.findIdx? (· == v) with
  | none => rfl
  | some i => rfl

theorem Sequence.redoes_replay [BEq α] {m : Modification α}
    (hm : Mask.fromList.covers m.kind) (s : Sequence α) :
    Standard.sequence.Redoes m s (Standard.sequence.replay m s) := by
  cases m with
  | remove v => exact congrArg (·.map id Sequence.items) (s.remove_eq v)
  | removeNext => exact absurd hm (by rw [Modification.kind]; decide)
  | _ => rfl

theorem Queue.addEach_eq [BEq α] (q : Queue α) (vs : List α) :
    (addEach Collection.add q vs).2 = ⟨q.items ++ vs⟩ := by
  induction vs using List.reverseRecOn with
  | nil => exact congrArg Queue.mk (List.append_nil _).symm
  | append_singleton vs v ih =>
    rw [addEach_concat, ih]
    exact congrArg Queue.mk (List.append_assoc ..)

theorem Queue.redoes_replay [BEq α] {m : Modification α}
    (hm : Mask.fromBuffer.covers m.kind) (q : Queue α) :
    Standard.queue.Redoes m q (Standard.queue.replay m q) := by
  cases m with
  | remove v => exact congrArg (·.map id Queue.items) (q.remove_eq v)
  | addIndexed | addIterated | addAllIndexed | removeIndexed | setIndexed | setIterated =>
    exact absurd hm (by rw [Modification.kind]; decide)
  | addAll vs => exact congrArg (fun q : Queue α => (none, q.items)) (q.addEach_eq vs)
  | _ => rfl

/-! ### Sets -/

/-- Of the elements of a set at most one is the same as a value, so erasing the first such one
erases them all. -/
theorem ActsAsSet.filter_eq_eraseP [Collection C α] {same : α → α → Bool} {items : C → List α}
    (h : ActsAsSet same items) (c : C) (v : α) :
    (items c).filter (fun a => !same v a) = (items c).eraseP (same v) := by
  have hdistinct := h.distinct c
  generalize items c = l at hdistinct
  induction l with
  | nil => rfl
  | cons a rest ih =>
    obtain ⟨ha, hrest⟩ := List.pairwise_cons.1 hdistinct
    cases hva : same v a with
    | true =>
      rw [List.eraseP_cons_of_pos hva, List.filter_cons_of_neg (by simp [hva])]
      refine List.filter_eq_self.2 fun b hb => ?_
      rw [Bool.not_eq_true']
      exact Bool.eq_false_iff.2 fun hvb =>
        Bool.eq_false_iff.1 (ha b hb) (h.trans (h.symm hva) hvb)
    | false =>
      rw [List.eraseP_cons_of_neg (by simp [hva]), List.filter_cons_of_pos (by simp [hva]), ih hrest]

theorem UniqueSet.redoes_replay [BEq α] [EquivBEq α] (m : Modification α) (s : UniqueSet α) :
    Standard.uniqueSet.Redoes m s (Standard.uniqueSet.replay m s) := by
  cases m with
  | add v => exact ⟨rfl, s.mem_insert v⟩
  | addAll vs => exact ⟨rfl, actsAsSet.mem_addEach s vs⟩
  | remove v | removeIterated i v => exact ⟨rfl, actsAsSet.filter_eq_eraseP s v⟩
  | _ => exact ⟨rfl, rfl⟩

theorem SortedSet.redoes_replay [BEq α] [Ord α] [Std.TransOrd α] (m : Modification α)
    (s : SortedSet α) : Standard.sortedSet.Redoes m s (Standard.sortedSet.replay m s) := by
  cases m with
  | add v => exact ⟨rfl, s.mem_insert v⟩
  | addAll vs => exact ⟨rfl, actsAsSet.mem_addEach s vs⟩
  | remove v | removeIterated i v => exact ⟨rfl, actsAsSet.filter_eq_eraseP s v⟩
  | _ => exact ⟨rfl, rfl⟩

/-! ### Bags -/

namespace CountedBag

variable [Ord α] [Std.TransOrd α] (b : CountedBag α)

theorem count_addEach (vs : List α) (u : α) :
    (addEach Collection.add b vs).2.count u =
      b.count u + vs.countP fun v => compare v u == .eq := by
  induction vs using List.reverseRecOn with
  | nil => rfl
  | append_singleton vs v ih =>
    have hadded := countIn_raise (addEach Collection.add b vs).2.ascending v 1 u
    rw [addEach_concat, List.countP_append, List.countP_singleton, ← Nat.add_assoc, ← ih]
    refine hadded.trans ?_
    by_cases hvu : compare v u = .eq
    · rw [if_pos hvu, if_pos (by simp [hvu])]
      exact congrArg (· + 1) (countIn_congr hvu _)
    · rw [if_neg hvu, if_neg (by simp [hvu])]
      rfl

/-- A removal takes one occurrence and gives an equal element back, if there is any. -/
theorem remove_spec (v : α) :
    ((b.remove v).1.isSome ↔ 0 < b.count v) ∧ (∀ x ∈ (b.remove v).1, compare v x = .eq) ∧
      b.Recounts v (b.count v - 1) (b.remove v).2 := by
  unfold remove
  cases hentry : b.entry? v with
  | none =>
    have hzero : b.count v = 0 := by
      rw [count, hentry]
      rfl
    have hsame := b.recounts_self v
    rw [hzero] at hsame ⊢
    exact ⟨by simp, by simp, hsame⟩
  | some p =>
    have hcount : b.count v = p.2 := by
      rw [count, hentry]
      rfl
    have hpos : 0 < b.count v := hcount ▸ b.positive p (List.mem_of_find?_eq_some hentry)
    have hvp : compare v p.1 = .eq := by simpa using List.find?_some hentry
    refine ⟨iff_of_true rfl hpos, ?_, countIn_lower b.ascending v 1⟩
    intro x hx
    obtain rfl := Option.some.inj hx
    split
    · exact hvp
    · exact Std.ReflOrd.compare_self

theorem redoes_replay [BEq α] (m : Modification α) :
    Standard.bag.Redoes m b (Standard.bag.replay m b) := by
  cases m with
  | add v => exact ⟨rfl, countIn_raise b.ascending v 1⟩
  | addAll vs => exact ⟨rfl, b.count_addEach vs⟩
  | addCopies v n => exact ⟨rfl, b.recounts_addCopies v n⟩
  | remove v | removeIterated i v => exact b.remove_spec v
  | removeCopies v n =>
    obtain ⟨-, hrecounts, -⟩ := b.removeCopies_eq v n
    have hless : b.count v - min n (b.count v) = b.count v - n := by omega
    exact ⟨rfl, hless ▸ hrecounts⟩
  | _ => exact ⟨rfl, rfl⟩

end CountedBag

/-! ### Replays and runs -/

namespace Standard

/-- **A replay does to the elements what its modification says**, and takes out or replaces the
element that it says, for every modification of a kind that the container announces. -/
theorem redoes_replay (k : Standard α C κ) {m : Modification α}
    (hm : k.announced.covers m.kind) (c : C) : k.Redoes m c (k.replay m c) := by
  rw [announced_eq] at hm
  cases k with
  | sequence => exact Sequence.redoes_replay hm c
  | queue => exact Queue.redoes_replay hm c
  | uniqueSet => exact UniqueSet.redoes_replay m c
  | sortedSet => exact SortedSet.redoes_replay m c
  | bag => exact CountedBag.redoes_replay c m

variable [ObjectIdentity α] {k : Standard α C κ} {j : Judge α} {s s' : Session C κ α}
  {w w' : HeardWorld α}

theorem Step.covers {a : Action α} {r : Except Error (Response α)} (hs : k.Sound s w)
    (hstep : k.Step j s w a r s' w') :
    ∀ e ∈ (⟨a, s, w, r, s', w'⟩ : Turn C κ α).reports, k.announced.covers e.modification.kind := by
  intro e he
  cases hstep with
  | failed | answered | moved | notOpened | closed =>
    rw [Turn.reports, Turn.heard_eq (List.append_nil _).symm] at he
    cases he
  | opened o f w' hf =>
    rw [Turn.reports, Turn.heard_eq (hf.outside.trans (List.append_nil _).symm)] at he
    cases he
  | refused =>
    rw [Turn.reports, Turn.heard_eq rfl] at he
    cases he
  | accepted command f m hf hm hj =>
    rw [Turn.reports, Turn.heard_eq rfl, List.filterMap_cons_none rfl, Seat.told_reports] at he
    split at he
    next => cases he
    next =>
      obtain rfl := List.mem_singleton.1 he
      have hcompletes := (regular_of_mutation hs.fits hf hm).completes
      have hkind : (m.completion.modification.shift s.seat.offset).kind = command.kind :=
        (Modification.kind_shift ..).trans
          ((congrArg _ hcompletes).trans (kind_of_mutation hf hm))
      have hcovers := covers_of_mutation hf
      rw [← hkind] at hcovers
      exact hcovers

/-- **Every turn that is told of does to the elements what its event says.**  In every run, whatever
the judge vetoes, a turn that a mirror can follow leaves the container alone, or it raises one event
after a modification; and what this event says became of the elements, with the element that it
names as the previous one taken out or replaced. -/
theorem run_redone (k : Standard α C κ) (j : Judge α) {c : Watched C} {w : HeardWorld α}
    (hc : w.Presides c.handler c.id) (actions : List (Action α)) {t : Turn C κ α}
    (ht : t ∈ (k.run j actions c.session w).turns) (hgood : t.isTraceable) :
    (t.reports = [] ∧ t.after.container = t.before.container) ∨
      ∃ e, t.reports = [e] ∧
        k.Redoes e.modification t.before.container (e.previous?, t.after.container) := by
  obtain ⟨hs, hstep⟩ := (k.sound_session hc).turn ht
  rcases hstep.mirrored hs hgood with hquiet | ⟨e, hone, hreplay⟩
  · exact .inl hquiet
  · have hcovers := hstep.covers hs e (by rw [hone]; exact List.mem_singleton_self e)
    have hredoes := k.redoes_replay hcovers t.before.container
    rw [hreplay] at hredoes
    exact .inr ⟨e, hone, hredoes⟩

end Standard

end WatchedContainers
