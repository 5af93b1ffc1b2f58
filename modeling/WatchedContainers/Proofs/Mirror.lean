import WatchedContainers.Proofs.Run
import WatchedContainers.Watched.Mirror

/-!
# Mirrors follow

A mirror that starts as a copy of a container and hears of its modifications stays a copy, whatever
is vetoed.

* `Mutation.Mirrored`: a mutation is the replay of the modification that is told of it.
* `Standard.mirrored_of_mutation`: so is every mutation of a command that can be followed.
* `Standard.run_mirrored`: **a mirror ends as the container does**, and takes out or replaces the
  element that each event names as the previous one.  What a replay does to the elements is said in
  `Standard.redoes_replay`.
-/

namespace WatchedContainers

variable {C κ α : Type}

/-- A mutation is the replay of what is told of it, counted from `offset`. -/
structure Mutation.Mirrored (k : Standard α C κ) (offset : Nat) (c : C) (m : Mutation C α) :
    Prop where
  replayed : k.replay (m.completion.modification.shift offset) c =
    (m.completion.previous?, m.container)
  absent : m.completion.absent?.isSome → m.container = c

/-! ### Removals that find nothing -/

theorem getElem?_findIdx?_ne_none {l : List α} {p : α → Bool} {i : Nat}
    (h : l.findIdx? p = some i) : l[i]? ≠ none := by
  have hlt : i < l.length := (List.findIdx?_eq_some_iff_findIdx_eq.1 h).1
  simp [hlt]

section Absent

variable {v : α}

theorem Sequence.remove_of_none [BEq α] {s : Sequence α} (h : (s.remove v).1 = none) :
    (s.remove v).2 = s := by
  unfold remove at h ⊢
  split at h
  next i hi => exact absurd h (getElem?_findIdx?_ne_none hi)
  next => rfl

theorem Queue.remove_of_none [BEq α] {q : Queue α} (h : (q.remove v).1 = none) :
    (q.remove v).2 = q := by
  unfold remove at h ⊢
  split at h
  next i hi => exact absurd h (getElem?_findIdx?_ne_none hi)
  next => rfl

theorem UniqueSet.take_of_none [BEq α] {s : UniqueSet α} (h : (s.take v).1 = none) :
    (s.take v).2 = s := by
  obtain ⟨items, distinct⟩ := s
  have hkeep : ∀ a ∈ items, (!(a == v)) = true := by simpa using List.find?_eq_none.1 h
  simpa only [take, filter, mk.injEq] using List.filter_eq_self.2 hkeep

theorem SortedSet.take_of_none [Ord α] {s : SortedSet α} (h : (s.take v).1 = none) :
    (s.take v).2 = s := by
  obtain ⟨items, ascending⟩ := s
  have hkeep : ∀ a ∈ items, (compare v a != .eq) = true := by
    simpa [bne] using List.find?_eq_none.1 h
  simpa only [take, filter, mk.injEq] using List.filter_eq_self.2 hkeep

theorem CountedBag.remove_of_none [Ord α] {b : CountedBag α} (h : (b.remove v).1 = none) :
    (b.remove v).2 = b := by
  unfold remove at h ⊢
  split at h
  next => simp at h
  next => rfl

theorem Standard.remove_of_none (k : Standard α C κ) {c : C}
    (h : (let _ := k.collection; (Collection.remove c v).1) = none) :
    (let _ := k.collection; (Collection.remove c v).2) = c := by
  cases k with
  | sequence => exact Sequence.remove_of_none h
  | queue => exact Queue.remove_of_none h
  | uniqueSet => exact UniqueSet.take_of_none h
  | sortedSet => exact SortedSet.take_of_none h
  | bag => exact CountedBag.remove_of_none h

end Absent

/-! ### At a container -/

theorem Completion.removed_of_absent {v : α} {removed : Option α}
    (h : (Completion.remove v removed).absent?.isSome) : removed = none := by
  cases removed with
  | none => rfl
  | some p => simp [absent?] at h

theorem Standard.mirrored_of_collection (k : Standard α C κ) {command : Command α} {c : C}
    {f : C → Mutation C α}
    (hf : (let _ := k.collection; let _ := k.equality; Collection.mutation? command) = some f) :
    (f c).Mirrored k 0 c := by
  cases command with
  | add | addAll | removeAll | retainAll | clear =>
    obtain rfl := Option.some.inj hf
    exact ⟨rfl, fun h => absurd h Bool.false_ne_true⟩
  | remove v =>
    obtain rfl := Option.some.inj hf
    exact ⟨rfl, fun h => k.remove_of_none (Completion.removed_of_absent h)⟩
  | _ => simp [Collection.mutation?] at hf

theorem Queue.mirrored_of_buffered [BEq α] {command : Command α} {q : Queue α}
    {f : Queue α → Mutation (Queue α) α} (hf : Buffered.mutation? command = some f) :
    (f q).Mirrored .queue 0 q := by
  cases command with
  | removeNext =>
    obtain rfl := Option.some.inj hf
    refine ⟨rfl, fun h => ?_⟩
    obtain ⟨items⟩ := q
    cases items with
    | nil => rfl
    | cons a l => simp [Buffered.removeNext, Completion.absent?] at h
  | _ => simp [Buffered.mutation?] at hf

theorem CountedBag.mirrored_of_counted [BEq α] [Ord α] [Std.TransOrd α] {command : Command α}
    {b : CountedBag α} {f : CountedBag α → Mutation (CountedBag α) α}
    (hf : Counted.mutation? command = some f) : (f b).Mirrored .bag 0 b := by
  cases command with
  | addCopies | removeCopies =>
    obtain rfl := Option.some.inj hf
    exact ⟨rfl, fun h => absurd h Bool.false_ne_true⟩
  | _ => simp [Counted.mutation?] at hf

/-! ### At the windows of a sequence -/

namespace Sequence

section Replays

variable (pre mid suf : List α) (i : Nat)

theorem replay_insert (v : α) (h : i ≤ mid.length) :
    replay (.addIndexed (i + pre.length) v) ⟨pre ++ mid ++ suf⟩ =
      (none, ⟨pre ++ mid.insertIdx i v ++ suf⟩) := by
  rw [replay, Nat.add_comm, insertIdx_middle _ _ _ _ _ h]

theorem replay_insertAll (vs : List α) (h : i ≤ mid.length) :
    replay (.addAllIndexed (i + pre.length) vs) ⟨pre ++ mid ++ suf⟩ =
      (none, ⟨pre ++ (mid.take i ++ vs ++ mid.drop i) ++ suf⟩) := by
  rw [replay, Nat.add_comm, take_middle _ _ _ _ h, drop_middle _ _ _ _ h]
  simp only [List.append_assoc]

theorem replay_erase {p : α} (h : mid[i]? = some p) :
    replay (.removeIndexed (i + pre.length)) ⟨pre ++ mid ++ suf⟩ =
      (some p, ⟨pre ++ mid.eraseIdx i ++ suf⟩) := by
  have hi := (List.getElem?_eq_some_iff.1 h).1
  rw [replay, Nat.add_comm, getElem?_middle _ _ _ _ hi, eraseIdx_middle _ _ _ _ hi, h]

theorem replay_set {p : α} (v : α) (h : mid[i]? = some p) :
    replay (.setIndexed (i + pre.length) v) ⟨pre ++ mid ++ suf⟩ =
      (some p, ⟨pre ++ mid.set i v ++ suf⟩) := by
  have hi := (List.getElem?_eq_some_iff.1 h).1
  rw [replay, Nat.add_comm, getElem?_middle _ _ _ _ hi, set_middle _ _ _ _ _ hi, h]

end Replays

variable [BEq α] {command : Command α} {start tail : Nat} {s : Sequence α}
  {f : Sequence α → Except Error (Mutation (Sequence α) α)} {m : Mutation (Sequence α) α}

/-- Commands at a position of a window are told of by their positions in the sequence. -/
theorem mirrored_of_positional (hc : command.isPositional)
    (hin : start + tail ≤ s.items.length) (hf : mutation? command = some f)
    (hm : within start tail f s = .ok m) : m.Mirrored .sequence start s := by
  obtain ⟨pre, mid, suf, rfl, rfl, rfl⟩ := exists_middle s start tail hin
  rw [within_middle] at hm
  cases command with
  | addAt i v =>
    obtain rfl := Option.some.inj hf
    by_cases hi : i ≤ mid.length
    · simp only [if_pos hi] at hm
      obtain rfl := Except.ok.inj hm
      exact ⟨replay_insert pre mid suf i v hi, fun h => absurd h Bool.false_ne_true⟩
    · simp [if_neg hi, Except.map] at hm
  | addAllAt i vs =>
    obtain rfl := Option.some.inj hf
    by_cases hi : i ≤ mid.length
    · simp only [if_pos hi] at hm
      obtain rfl := Except.ok.inj hm
      exact ⟨replay_insertAll pre mid suf i vs hi, fun h => absurd h Bool.false_ne_true⟩
    · simp [if_neg hi, Except.map] at hm
  | removeAt i =>
    obtain rfl := Option.some.inj hf
    cases hp : mid[i]? with
    | none => simp [hp, Except.map] at hm
    | some p =>
      simp only [hp] at hm
      obtain rfl := Except.ok.inj hm
      exact ⟨replay_erase pre mid suf i hp, fun h => absurd h Bool.false_ne_true⟩
  | set i v =>
    obtain rfl := Option.some.inj hf
    cases hp : mid[i]? with
    | none => simp [hp, Except.map] at hm
    | some p =>
      simp only [hp] at hm
      obtain rfl := Except.ok.inj hm
      exact ⟨replay_set pre mid suf i v hp, fun h => absurd h Bool.false_ne_true⟩
  | _ => simp [Command.isPositional] at hc

end Sequence

/-- Commands at a list iterator are told of by the position of their element. -/
theorem ListIterator.mirrored [BEq α] {command : Command α} {start tail cursor : Nat}
    {last : Option Nat} {s : Sequence α}
    {f : Sequence α → Except Error (Mutation (Sequence α) α)} {m : Mutation (Sequence α) α}
    (hin : start + tail ≤ s.items.length)
    (hr : InRange cursor last (s.items.length - start - tail))
    (hf : mutation? cursor last command = some f)
    (hm : Sequence.within start tail f s = .ok m) : m.Mirrored .sequence start s := by
  obtain ⟨pre, mid, suf, rfl, rfl, rfl⟩ := Sequence.exists_middle s start tail hin
  rw [Sequence.within_middle] at hm
  cases command with
  | removeLast =>
    obtain rfl := Option.some.inj hf
    cases last with
    | none => simp [Except.map] at hm
    | some i =>
      cases hp : mid[i]? with
      | none => simp [hp, Except.map] at hm
      | some p =>
        simp only [Option.bind_some, hp, Option.map_some] at hm
        obtain rfl := Except.ok.inj hm
        exact ⟨Sequence.replay_erase pre mid suf i hp, fun h => absurd h Bool.false_ne_true⟩
  | setLast v =>
    obtain rfl := Option.some.inj hf
    cases last with
    | none => simp [Except.map] at hm
    | some i =>
      cases hp : mid[i]? with
      | none => simp [hp, Except.map] at hm
      | some p =>
        simp only [Option.bind_some, hp, Option.map_some] at hm
        obtain rfl := Except.ok.inj hm
        exact ⟨Sequence.replay_set pre mid suf i v hp, fun h => absurd h Bool.false_ne_true⟩
  | insert v =>
    obtain rfl := Option.some.inj hf
    obtain rfl := Except.ok.inj hm
    have hc : cursor ≤ mid.length := by
      have := hr.cursor_le
      simp only [List.length_append] at this
      omega
    exact ⟨Sequence.replay_insert pre mid suf cursor v hc, fun h => absurd h Bool.false_ne_true⟩
  | _ => simp [mutation?] at hf

/-! ### At whatever is in front -/

theorem Sequence.mutation?_of_not_positional [BEq α] {command : Command α}
    (hc : command.isPositional = false) :
    mutation? command = (Collection.mutation? command).map fun f s => .ok (f s) := by
  cases command <;> first | rfl | simp [Command.isPositional] at hc

namespace Standard

variable {k : Standard α C κ} {command : Command α} {c : C} {frames : List (Frame κ α)}
  {f : C → Except Error (Mutation C α)} {m : Mutation C α}

theorem mirrored_of_rootMutation (hf : k.rootMutation? command = some f) (hm : f c = .ok m) :
    m.Mirrored k 0 c := by
  cases k with
  | sequence =>
    cases hc : command.isPositional with
    | true =>
      have hm' := (Sequence.within_zero f c).trans hm
      exact Sequence.mirrored_of_positional hc (Nat.zero_le _) hf hm'
    | false =>
      have hf' := (Sequence.mutation?_of_not_positional hc).symm.trans hf
      obtain ⟨g, hg, rfl⟩ := Option.map_eq_some_iff.1 hf'
      obtain rfl := Except.ok.inj hm
      exact sequence.mirrored_of_collection hg
  | queue =>
    obtain ⟨g, hg, rfl⟩ := Option.map_eq_some_iff.1 hf
    obtain rfl := Except.ok.inj hm
    rcases Option.or_eq_some_iff.1 hg with hg | ⟨-, hg⟩
    · exact queue.mirrored_of_collection hg
    · exact Queue.mirrored_of_buffered hg
  | uniqueSet =>
    obtain ⟨g, hg, rfl⟩ := Option.map_eq_some_iff.1 hf
    obtain rfl := Except.ok.inj hm
    exact uniqueSet.mirrored_of_collection hg
  | sortedSet =>
    obtain ⟨g, hg, rfl⟩ := Option.map_eq_some_iff.1 hf
    obtain rfl := Except.ok.inj hm
    exact sortedSet.mirrored_of_collection hg
  | bag =>
    obtain ⟨g, hg, rfl⟩ := Option.map_eq_some_iff.1 hf
    obtain rfl := Except.ok.inj hm
    rcases Option.or_eq_some_iff.1 hg with hg | ⟨-, hg⟩
    · exact bag.mirrored_of_collection hg
    · exact CountedBag.mirrored_of_counted hg

theorem replay_removeIterated (k : Standard α C κ) (i : Nat) (v : α) (c : C) :
    k.replay (.removeIterated i v) c = k.erase i v c := by
  cases k <;> rfl

/-- A removal at an iterator is told of by the element that it takes out. -/
theorem InStep.mirrored {it : Iteration Unit κ α} (h : k.InStep c it)
    (hf : k.iterationMutation? it.current command = some f) (hm : f c = .ok m) :
    m.Mirrored k 0 c := by
  cases command with
  | removeLast =>
    obtain rfl := Option.some.inj hf
    cases hc : it.current with
    | none => simp [hc] at hm
    | some p =>
      obtain ⟨i, v⟩ := p
      simp only [hc, Except.ok.injEq] at hm
      subst hm
      have hw := h.walks
      rw [hc] at hw
      have herase : (k.erase i v c).1 = some v := hw.erase.1.1
      refine ⟨?_, fun h => absurd h Bool.false_ne_true⟩
      simp only [herase, Option.getD_some]
      exact (k.replay_removeIterated i v c).trans (Prod.ext herase rfl)
  | _ => simp [iterationMutation?] at hf

/-- **Every command that can be followed is told of as it is.** -/
theorem mirrored_of_mutation (h : k.Fits c frames) (hc : command.isTraceable frames)
    (hf : k.mutation? frames command = some f) (hm : f c = .ok m) :
    m.Mirrored k (flanks frames).1 c := by
  cases frames with
  | nil => exact mirrored_of_rootMutation (k := k) hf hm
  | cons g rest =>
    cases g with
    | subList v =>
      cases k with
      | sequence =>
        obtain ⟨g, hg, rfl⟩ := Option.map_eq_some_iff.1 hf
        exact Sequence.mirrored_of_positional hc h.inside hg hm
      | queue | uniqueSet | sortedSet | bag => simp [mutation?] at hf
    | sortedView v => simp [Command.isTraceable] at hc
    | iteration it ref =>
      have hit : k.InStep c it := h.front
      cases k <;> exact hit.mirrored hf hm
    | listIterator it ref =>
      cases k with
      | sequence =>
        obtain ⟨g, hg, rfl⟩ := Option.map_eq_some_iff.1 hf
        exact ListIterator.mirrored h.inside h.front.2 hg hm
      | queue | uniqueSet | sortedSet | bag => simp [mutation?] at hf

/-- Events are counted from the start of the window in front. -/
theorem Fits.offset_eq (h : k.Fits c frames) (root : Watched C) :
    (Session.seatOf root frames).offset = (flanks frames).1 := by
  have hbelow : ∀ rest : List (Frame κ α), (∀ f ∈ rest, f.isView) →
      (Session.seatOf root rest).offset = (flanks rest).1 := by
    intro rest hviews
    cases rest with
    | nil => rfl
    | cons g rest =>
      have hg : g.isView := hviews g List.mem_cons_self
      cases g with
      | subList v => rfl
      | sortedView v => rfl
      | iteration it ref => simp [Frame.isView] at hg
      | listIterator it ref => simp [Frame.isView] at hg
  cases frames with
  | nil => rfl
  | cons g rest =>
    cases g with
    | subList v => rfl
    | sortedView v => rfl
    | iteration it ref =>
      have hle : (flanks rest).1 ≤ 0 := h.nested.1
      exact (hbelow rest h.views).trans (Nat.le_zero.1 hle)
    | listIterator it ref =>
      exact (hbelow rest h.views).trans (congrArg Prod.fst h.front.1).symm

end Standard

/-! ### Runs -/

theorem Seat.told_reports [ObjectIdentity α] (seat : Seat) (c : Completion α)
    (preSize postSize : Nat) :
    (seat.reports c preSize postSize).filterMap Heard.told? =
      if c.absent?.isSome then [] else [seat.after c preSize postSize] := by
  unfold reports
  split <;> rfl

namespace Standard

variable [ObjectIdentity α] {k : Standard α C κ} {j : Judge α} {s s' : Session C κ α}
  {w w' : HeardWorld α}

/-- **A turn is told of as it is**: the container stays, or the replay of the event changes it and
names what was taken out. -/
theorem Step.mirrored {a : Action α} {r : Except Error (Response α)} (hs : k.Sound s w)
    (hstep : k.Step j s w a r s' w')
    (ht : (⟨a, s, w, r, s', w'⟩ : Turn C κ α).isTraceable) :
    ((⟨a, s, w, r, s', w'⟩ : Turn C κ α).reports = [] ∧ s'.container = s.container) ∨
      ∃ e, (⟨a, s, w, r, s', w'⟩ : Turn C κ α).reports = [e] ∧
        k.replay e.modification s.container = (e.previous?, s'.container) := by
  cases hstep with
  | failed | answered | moved | notOpened | closed =>
    refine Or.inl ⟨?_, rfl⟩
    rw [Turn.reports, Turn.heard_eq (List.append_nil _).symm, List.filterMap_nil]
  | opened o f w' hf =>
    refine Or.inl ⟨?_, rfl⟩
    rw [Turn.reports, Turn.heard_eq (hf.outside.trans (List.append_nil _).symm),
      List.filterMap_nil]
  | refused =>
    refine Or.inl ⟨?_, rfl⟩
    rw [Turn.reports, Turn.heard_eq rfl]
    rfl
  | accepted command f m hf hm hj =>
    have hmirrored := mirrored_of_mutation hs.fits ht hf hm
    rw [Turn.reports, Turn.heard_eq rfl, List.filterMap_cons_none rfl, Seat.told_reports]
    split
    next habsent => exact Or.inl ⟨rfl, hmirrored.absent habsent⟩
    next =>
      refine Or.inr ⟨_, rfl, ?_⟩
      have hreplayed := hmirrored.replayed
      rw [← hs.fits.offset_eq s.root] at hreplayed
      exact hreplayed

theorem mirror_of_run (hs : k.Sound s w) (actions : List (Action α))
    (hgood : ∀ t ∈ (k.run j actions s w).turns, t.isTraceable) :
    k.mirror (k.run j actions s w).reports s.container =
        (k.run j actions s w).session.container ∧
      ∀ early e late, (k.run j actions s w).reports = early ++ e :: late →
        (k.replay e.modification (k.mirror early s.container)).1 = e.previous? := by
  induction actions generalizing s w with
  | nil => exact ⟨rfl, by simp [run, Course.reports, Course.heard]⟩
  | cons a rest ih =>
    rw [run] at hgood ⊢
    cases ha : k.act j.observers a s w with
    | none =>
      rw [ha] at hgood
      exact ih hs hgood
    | some x =>
      obtain ⟨r, s', w'⟩ := x
      rw [ha] at hgood
      obtain ⟨hfirst, hrest⟩ := List.forall_mem_cons.1 hgood
      have hst := hs.step ha
      obtain ⟨hmirror, hprevious⟩ := ih (hst.sound hs) hrest
      have hsplit : ((k.run j rest s' w').after ⟨a, s, w, r, s', w'⟩).reports =
          (⟨a, s, w, r, s', w'⟩ : Turn C κ α).reports ++ (k.run j rest s' w').reports :=
        Course.reports_after ..
      simp only [hsplit]
      rcases hst.mirrored hs hfirst with ⟨hnone, hsame⟩ | ⟨e, hone, hreplay⟩
      · rw [hnone, List.nil_append, ← hsame]
        exact ⟨hmirror, hprevious⟩
      · have hnext : ∀ events, k.mirror (e :: events) s.container = k.mirror events s'.container :=
          fun events => congrArg (k.mirror events) (congrArg Prod.snd hreplay)
        rw [hone, List.singleton_append, hnext]
        refine ⟨hmirror, fun early e' late heq => ?_⟩
        cases early with
        | nil =>
          obtain ⟨rfl, -⟩ := List.cons.inj heq
          exact congrArg Prod.fst hreplay
        | cons x early =>
          obtain ⟨rfl, htail⟩ := List.cons.inj heq
          rw [hnext]
          exact hprevious early e' late htail

/-- **A mirror ends as the container does.**  In every run whose commands can be followed, whatever
the judge vetoes, the replay of the events raised after modifications turns a copy of the initial
container into the final one; on the way every event names the element that its replay takes out or
replaces, and no other. -/
theorem run_mirrored (k : Standard α C κ) (j : Judge α) {c : Watched C} {w : HeardWorld α}
    (hc : w.Presides c.handler c.id) (actions : List (Action α))
    (hgood : ∀ t ∈ (k.run j actions c.session w).turns, t.isTraceable) :
    k.mirror (k.run j actions c.session w).reports c.inner =
        (k.run j actions c.session w).session.container ∧
      ∀ early e late, (k.run j actions c.session w).reports = early ++ e :: late →
        (k.replay e.modification (k.mirror early c.inner)).1 = e.previous? :=
  mirror_of_run (k.sound_session hc) actions hgood

/-- A sub-list and two iterators are used, and one replacement is refused. -/
theorem run_mirrored_iterating :
    let k : Standard Int (Sequence Int) PositionCursor := .sequence
    let course := k.run (fun _ e => e.kind != .setIndexed)
      [.openFrame (.subList 1 3), .command (.addAt 1 9), .command (.set 0 7),
        .openFrame .listIterator, .move .next, .command .removeLast, .close, .close,
        .openFrame .iteration, .move .next, .command .removeLast]
      (Watched.alone ⟨[1, 2, 3]⟩).session k.world
    course.session.container = ⟨[9, 3]⟩ ∧
      k.mirror course.reports ⟨[1, 2, 3]⟩ = course.session.container ∧
      ∀ early e late, course.reports = early ++ e :: late →
        (k.replay e.modification (k.mirror early ⟨[1, 2, 3]⟩)).1 = e.previous? :=
  ⟨by decide +kernel,
    run_mirrored .sequence _ (presides_world .sequence ⟨[1, 2, 3]⟩) _ (by decide +kernel)⟩

end Standard

end WatchedContainers
