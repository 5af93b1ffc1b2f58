import WatchedContainers.Proofs.Accounts
import WatchedContainers.Proofs.Descent
import WatchedContainers.Proofs.LoyalRun

/-!
# Announced kinds and well-formed events

A handler announces the kinds that its container is able to raise, by the capabilities it was bound
with.  What an event carries follows from its kind and its phase alone.

* `Event.WellFormed`: which fields an event of a kind and a phase carries.
* `Standard.covers_of_mutation`: no command is served whose kind the container does not announce.
* `Turn.Announces`: a call of the root's hooks that is well-formed, announced and names its view.
* `Standard.run_announced`: **every call in every run under loyal parties** is such a call.
-/

namespace WatchedContainers

open Session (seatOf)

variable {ρ σ C κ α : Type}

/-! ### What events carry -/

namespace Kind

def batched : List Kind := [addAll, addAllIndexed, removeAll, retainAll]

def nameless : List Kind := batched ++ [removeIndexed, clear, removeNext]

def counted : List Kind := [addCopies, removeCopies]

def returning : List Kind :=
  [remove, removeIndexed, removeIterated, removeNext, setIndexed, setIterated]

theorem isIndexed_eq (k : Kind) :
    k.isIndexed =
      match k with
      | addIndexed | addIterated | addAllIndexed | removeIndexed | removeIterated | setIndexed
      | setIterated => true
      | _ => false := by
  cases k <;> decide

end Kind

/-- The event carries what its kind and its phase ask for, and no more. -/
structure Event.WellFormed (e : Event α) : Prop where
  index : e.index?.isSome = e.kind.isIndexed
  batch : e.batch?.isSome ↔ e.kind ∈ Kind.batched
  subject : e.subject?.isSome ↔ e.kind ∉ Kind.nameless
  repetitions : e.repetitions ≠ 1 → e.kind ∈ Kind.counted
  previous : e.previous?.isSome ↔ e.phase = .post ∧ e.kind ∈ Kind.returning
  postSize : e.postSize?.isSome ↔ e.phase = .post
  modified : e.modified?.isSome ↔ e.phase = .post
  sizeChange : e.sizeChange?.isSome ↔ e.phase = .post

namespace Modification

variable (m : Modification α)

theorem isSome_index? : m.index?.isSome = m.kind.isIndexed := by
  rw [Kind.isIndexed_eq]
  cases m <;> rfl

theorem isSome_batch? : m.batch?.isSome ↔ m.kind ∈ Kind.batched := by
  cases m <;> simp [batch?, kind, Kind.batched]

theorem isSome_subject? : m.subject?.isSome ↔ m.kind ∉ Kind.nameless := by
  cases m <;> simp [subject?, kind, Kind.nameless, Kind.batched]

theorem kind_of_repetitions (h : m.repetitions ≠ 1) : m.kind ∈ Kind.counted := by
  cases m <;> simp_all [repetitions, kind, Kind.counted]

@[simp] theorem batch?_shift (offset : Nat) : (m.shift offset).batch? = m.batch? := by
  cases m <;> rfl

@[simp] theorem subject?_shift (offset : Nat) : (m.shift offset).subject? = m.subject? := by
  cases m <;> rfl

@[simp] theorem repetitions_shift (offset : Nat) :
    (m.shift offset).repetitions = m.repetitions := by
  cases m <;> rfl

end Modification

theorem Completion.isSome_previous? {c : Completion α} (h : c.absent? = none) :
    c.previous?.isSome ↔ c.modification.kind ∈ Kind.returning := by
  cases c with
  | remove v removed | removeNext removed =>
    cases removed <;>
      simp_all [absent?, previous?, modification, Modification.kind, Kind.returning]
  | _ => simp [previous?, modification, Modification.kind, Kind.returning]

namespace Event.WellFormed

theorem of_before (observed : ContainerId) (handler : HandlerRef) (m : Modification α)
    (view : Option Viewpoint) (size : Nat) : (before observed handler m view size).WellFormed where
  index := m.isSome_index?
  batch := m.isSome_batch?
  subject := m.isSome_subject?
  repetitions := m.kind_of_repetitions
  previous := by simp [previous?, phase, isPre, before]
  postSize := by simp [postSize?, phase, isPre, before]
  modified := by simp [modified?, phase, isPre, before]
  sizeChange := by simp [sizeChange?, phase, isPre, before]

theorem of_after [ObjectIdentity α] (observed : ContainerId) (handler : HandlerRef) (offset : Nat)
    {c : Completion α} (hc : c.absent? = none) (view : Option Viewpoint) (preSize postSize : Nat) :
    (after observed handler offset c view preSize postSize).WellFormed where
  index := (c.modification.shift offset).isSome_index?
  batch := (c.modification.shift offset).isSome_batch?
  subject := (c.modification.shift offset).isSome_subject?
  repetitions := (c.modification.shift offset).kind_of_repetitions
  previous := by
    have hkind : (after observed handler offset c view preSize postSize).kind =
        c.modification.kind := Modification.kind_shift offset c.modification
    rw [hkind, ← Completion.isSome_previous? hc]
    simp [previous?, phase, isPre, after]
  postSize := by simp [postSize?, phase, isPre, after]
  modified := by simp [modified?, phase, isPre, after]
  sizeChange := by simp [sizeChange?, phase, isPre, after]

end Event.WellFormed

/-! ### What is announced -/

theorem Mask.covers_union_left {a b : Mask} {kind : Kind} (h : a.covers kind) :
    (a ||| b).covers kind := by
  have hdistrib : (a.bits ||| b.bits) &&& kind.bit =
      a.bits &&& kind.bit ||| b.bits &&& kind.bit := by
    refine UInt32.toBitVec_inj.1 (BitVec.eq_of_getLsbD_eq fun i _ => ?_)
    simp [Bool.and_or_distrib_right]
  refine bne_iff_ne.2 fun hzero => bne_iff_ne.1 h ?_
  exact (UInt32.or_eq_zero_iff.1 (hdistrib.symm.trans hzero)).1

def Command.kind : Command α → Kind
  | add _ => .add
  | addAll _ => .addAll
  | remove _ => .remove
  | removeAll _ => .removeAll
  | retainAll _ => .retainAll
  | clear => .clear
  | addAt _ _ => .addIndexed
  | addAllAt _ _ => .addAllIndexed
  | removeAt _ => .removeIndexed
  | set _ _ => .setIndexed
  | addCopies _ _ => .addCopies
  | removeCopies _ _ => .removeCopies
  | removeNext => .removeNext
  | removeLast => .removeIterated
  | setLast _ => .setIterated
  | insert _ => .addIterated

section Kinds

variable {command : Command α}

theorem Collection.kind_of_mutation [Collection C α] [BEq α] {f : C → Mutation C α}
    (hf : Collection.mutation? command = some f) (c : C) :
    (f c).proposal.kind = command.kind := by
  cases command <;> simp [Collection.mutation?] at hf <;> subst hf <;> rfl

theorem Counted.kind_of_mutation [Counted C α] {f : C → Mutation C α}
    (hf : Counted.mutation? command = some f) (c : C) :
    (f c).proposal.kind = command.kind := by
  cases command <;> simp [Counted.mutation?] at hf <;> subst hf <;> rfl

theorem Buffered.kind_of_mutation [Buffered C α] {f : C → Mutation C α}
    (hf : Buffered.mutation? command = some f) (c : C) :
    (f c).proposal.kind = command.kind := by
  cases command <;> simp [Buffered.mutation?] at hf
  subst hf
  rfl

theorem Sequence.kind_of_mutation [BEq α] {s : Sequence α} {m : Mutation (Sequence α) α}
    {f : Sequence α → Except Error (Mutation (Sequence α) α)}
    (hf : Sequence.mutation? command = some f) (hm : f s = .ok m) :
    m.proposal.kind = command.kind := by
  cases command with
  | addAt i v | addAllAt i vs | removeAt i | set i v =>
    obtain rfl := Option.some.inj hf
    simp only at hm
    split at hm
    · obtain rfl := Except.ok.inj hm
      rfl
    · simp at hm
  | _ =>
    have hf' := (mutation?_of_not_positional rfl).symm.trans hf
    obtain ⟨g, hg, rfl⟩ := Option.map_eq_some_iff.1 hf'
    obtain rfl := Except.ok.inj hm
    exact Collection.kind_of_mutation hg s

theorem Sequence.kind_within {start tail : Nat} {s : Sequence α} {m : Mutation (Sequence α) α}
    {f : Sequence α → Except Error (Mutation (Sequence α) α)}
    (hkind : ∀ s m, f s = .ok m → m.proposal.kind = command.kind)
    (hm : Sequence.within start tail f s = .ok m) : m.proposal.kind = command.kind := by
  obtain ⟨m₀, hm₀, rfl⟩ := Sequence.exists_of_within hm
  exact hkind _ m₀ hm₀

theorem ListIterator.kind_of_mutation [BEq α] {cursor : Nat} {last : Option Nat} {s : Sequence α}
    {m : Mutation (Sequence α) α} {f : Sequence α → Except Error (Mutation (Sequence α) α)}
    (hf : ListIterator.mutation? cursor last command = some f) (hm : f s = .ok m) :
    m.proposal.kind = command.kind := by
  cases command with
  | removeLast | setLast v =>
    obtain rfl := Option.some.inj hf
    simp only at hm
    split at hm
    · obtain rfl := Except.ok.inj hm
      rfl
    · simp at hm
  | insert v =>
    obtain rfl := Option.some.inj hf
    obtain rfl := Except.ok.inj hm
    rfl
  | _ => simp [ListIterator.mutation?] at hf

theorem SortedSet.kind_of_range [BEq α] [Ord α] [Std.TransOrd α] {b : Bounds α} {s : SortedSet α}
    {m : Mutation (SortedSet α) α} {f : SortedSet α → Except Error (Mutation (SortedSet α) α)}
    (hf : SortedSet.rangeMutation? b command = some f) (hm : f s = .ok m) :
    m.proposal.kind = command.kind := by
  cases command with
  | add v | addAll vs =>
    obtain rfl := Option.some.inj hf
    simp only at hm
    split at hm
    · obtain rfl := Except.ok.inj hm
      rfl
    · simp at hm
  | remove v =>
    obtain rfl := Option.some.inj hf
    obtain rfl := Except.ok.inj hm
    split <;> rfl
  | removeAll | retainAll | clear =>
    obtain rfl := Option.some.inj hf
    obtain rfl := Except.ok.inj hm
    rfl
  | _ => simp [SortedSet.rangeMutation?] at hf

end Kinds

namespace Standard

def announced (k : Standard α C κ) : Mask := .ofCapabilities k.capabilities

def group : Standard α C κ → Mask
  | sequence => .fromList
  | queue => .fromBuffer
  | uniqueSet => .fromSet
  | sortedSet => .fromSortedSet
  | bag => .fromBag

theorem announced_eq (k : Standard α C κ) : k.announced = k.group := by
  cases k with
  | sequence => exact (by decide : Mask.ofCapabilities (.collection ||| .list) = .fromList)
  | queue => exact (by decide : Mask.ofCapabilities (.collection ||| .buffer) = .fromBuffer)
  | uniqueSet => exact (by decide : Mask.ofCapabilities (.collection ||| .set) = .fromSet)
  | sortedSet =>
    exact (by decide : Mask.ofCapabilities (.collection ||| .set ||| .sortedSet) = .fromSortedSet)
  | bag => exact (by decide : Mask.ofCapabilities (.collection ||| .bag) = .fromBag)

variable {k : Standard α C κ} {command : Command α} {c : C} {frames : List (Frame κ α)}
  {f : C → Except Error (Mutation C α)} {m : Mutation C α}

theorem kind_of_rootMutation (hf : k.rootMutation? command = some f) (hm : f c = .ok m) :
    m.proposal.kind = command.kind := by
  cases k with
  | sequence => exact Sequence.kind_of_mutation hf hm
  | queue =>
    obtain ⟨g, hg, rfl⟩ := Option.map_eq_some_iff.1 hf
    obtain rfl := Except.ok.inj hm
    rcases Option.or_eq_some_iff.1 hg with hg | ⟨-, hg⟩
    · exact Collection.kind_of_mutation hg c
    · exact Buffered.kind_of_mutation hg c
  | uniqueSet | sortedSet =>
    obtain ⟨g, hg, rfl⟩ := Option.map_eq_some_iff.1 hf
    obtain rfl := Except.ok.inj hm
    exact Collection.kind_of_mutation hg c
  | bag =>
    obtain ⟨g, hg, rfl⟩ := Option.map_eq_some_iff.1 hf
    obtain rfl := Except.ok.inj hm
    rcases Option.or_eq_some_iff.1 hg with hg | ⟨-, hg⟩
    · exact Collection.kind_of_mutation hg c
    · exact Counted.kind_of_mutation hg c

theorem kind_of_iteration {it : Iteration Unit κ α}
    (hf : k.iterationMutation? it.current command = some f) (hm : f c = .ok m) :
    m.proposal.kind = command.kind := by
  cases command with
  | removeLast =>
    obtain rfl := Option.some.inj hf
    simp only at hm
    split at hm
    · obtain rfl := Except.ok.inj hm
      rfl
    · simp at hm
  | _ => simp [iterationMutation?] at hf

theorem kind_of_mutation (hf : k.mutation? frames command = some f) (hm : f c = .ok m) :
    m.proposal.kind = command.kind := by
  cases frames with
  | nil => exact kind_of_rootMutation (k := k) hf hm
  | cons g rest =>
    cases g with
    | subList v =>
      cases k with
      | sequence =>
        obtain ⟨g, hg, rfl⟩ := Option.map_eq_some_iff.1 hf
        exact Sequence.kind_within (fun _ _ => Sequence.kind_of_mutation hg) hm
      | queue | uniqueSet | sortedSet | bag => simp [mutation?] at hf
    | sortedView v =>
      cases k with
      | sortedSet => exact SortedSet.kind_of_range hf hm
      | sequence | queue | uniqueSet | bag => simp [mutation?] at hf
    | iteration it ref =>
      have hf' : k.iterationMutation? it.current command = some f := by
        cases k <;> exact hf
      exact kind_of_iteration hf' hm
    | listIterator it ref =>
      cases k with
      | sequence =>
        obtain ⟨g, hg, rfl⟩ := Option.map_eq_some_iff.1 hf
        exact Sequence.kind_within (fun _ _ => ListIterator.kind_of_mutation hg) hm
      | queue | uniqueSet | sortedSet | bag => simp [mutation?] at hf

theorem covers_group (k : Standard α C κ) {kind : Kind} (h : Mask.fromCollection.covers kind) :
    k.announced.covers kind := by
  rw [announced_eq]
  cases k with
  | sequence | queue | bag => exact Mask.covers_union_left h
  | uniqueSet | sortedSet => exact h

theorem covers_of_collection [Collection C α] [BEq α] (k : Standard α C κ)
    (h : (Collection.mutation? command : Option (C → Mutation C α)).isSome) :
    k.announced.covers command.kind := by
  cases command with
  | add | addAll | remove | removeAll | retainAll | clear =>
    exact k.covers_group (by rw [Command.kind]; decide)
  | _ => cases h

theorem covers_of_iteration {it : Iteration Unit κ α}
    (h : k.iterationMutation? it.current command = some f) : k.announced.covers command.kind := by
  cases command with
  | removeLast => exact k.covers_group (by rw [Command.kind]; decide)
  | _ => cases h

theorem covers_of_sequence [BEq α]
    (h : (Sequence.mutation? command : Option (Sequence α → _)).isSome) :
    (sequence (α := α)).announced.covers command.kind := by
  cases command with
  | addAt | addAllAt | removeAt | set =>
    rw [announced_eq, group, Command.kind]
    decide
  | _ =>
    rw [Sequence.mutation?_of_not_positional rfl, Option.isSome_map] at h
    exact sequence.covers_of_collection h

theorem covers_of_listIterator [BEq α] {cursor : Nat} {last : Option Nat}
    (h : (ListIterator.mutation? cursor last command : Option (Sequence α → _)).isSome) :
    (sequence (α := α)).announced.covers command.kind := by
  cases command with
  | removeLast | setLast | insert =>
    rw [announced_eq, group, Command.kind]
    decide
  | _ => cases h

theorem covers_of_range [BEq α] [Ord α] [Std.TransOrd α] {b : Bounds α}
    {f : SortedSet α → Except Error (Mutation (SortedSet α) α)}
    (h : SortedSet.rangeMutation? b command = some f) :
    (sortedSet (α := α)).announced.covers command.kind := by
  cases command with
  | add | addAll | remove | removeAll | retainAll | clear =>
    exact sortedSet.covers_group (by rw [Command.kind]; decide)
  | _ => cases h

theorem covers_of_root (h : k.rootMutation? command = some f) :
    k.announced.covers command.kind := by
  cases k with
  | sequence => exact covers_of_sequence (Option.isSome_of_eq_some h)
  | queue =>
    obtain ⟨g, hg, rfl⟩ := Option.map_eq_some_iff.1 h
    rcases Option.or_eq_some_iff.1 hg with hg | ⟨-, hg⟩
    · exact queue.covers_of_collection (Option.isSome_of_eq_some hg)
    · cases command with
      | removeNext =>
        rw [announced_eq, group, Command.kind]
        decide
      | _ => cases hg
  | uniqueSet =>
    obtain ⟨g, hg, rfl⟩ := Option.map_eq_some_iff.1 h
    exact uniqueSet.covers_of_collection (Option.isSome_of_eq_some hg)
  | sortedSet =>
    obtain ⟨g, hg, rfl⟩ := Option.map_eq_some_iff.1 h
    exact sortedSet.covers_of_collection (Option.isSome_of_eq_some hg)
  | bag =>
    obtain ⟨g, hg, rfl⟩ := Option.map_eq_some_iff.1 h
    rcases Option.or_eq_some_iff.1 hg with hg | ⟨-, hg⟩
    · exact bag.covers_of_collection (Option.isSome_of_eq_some hg)
    · cases command with
      | addCopies | removeCopies =>
        rw [announced_eq, group, Command.kind]
        decide
      | _ => cases hg

/-- **No command is served that the container does not announce**, at whatever is in front. -/
theorem covers_of_mutation (h : k.mutation? frames command = some f) :
    k.announced.covers command.kind := by
  cases frames with
  | nil => exact covers_of_root h
  | cons g rest =>
    cases g with
    | subList v =>
      cases k with
      | sequence =>
        obtain ⟨g, hg, -⟩ := Option.map_eq_some_iff.1 h
        exact covers_of_sequence (Option.isSome_of_eq_some hg)
      | queue | uniqueSet | sortedSet | bag => simp [mutation?] at h
    | sortedView v =>
      cases k with
      | sortedSet => exact covers_of_range h
      | sequence | queue | uniqueSet | bag => simp [mutation?] at h
    | iteration it ref =>
      have h' : k.iterationMutation? it.current command = some f := by
        cases k <;> exact h
      exact covers_of_iteration h'
    | listIterator it ref =>
      cases k with
      | sequence =>
        obtain ⟨g, hg, -⟩ := Option.map_eq_some_iff.1 h
        exact covers_of_listIterator (Option.isSome_of_eq_some hg)
      | queue | uniqueSet | sortedSet | bag => simp [mutation?] at h

end Standard

/-! ### Announcing handlers -/

namespace World

variable {w w' : World ρ σ} {obs : Observers ρ σ α} {h root : HandlerRef} {caps : Capabilities}

def BoundWith (w : World ρ σ) (caps : Capabilities) (h : HandlerRef) : Prop :=
  ∃ id, (w.handler h).binding = some ⟨id, caps⟩

namespace BoundWith

theorem isBound (hb : w.BoundWith caps h) : (w.handler h).isBound := by
  obtain ⟨id, hb⟩ := hb
  simp [Handler.isBound, hb]

theorem raisable_eq (hb : w.BoundWith caps h) :
    (w.handler h).raisable = .ofCapabilities caps := by
  obtain ⟨id, hb⟩ := hb
  simp [Handler.raisable, Handler.capabilities, hb]

theorem of_keeps (hb : w.BoundWith caps h) (hk : Keeps root w w') : w'.BoundWith caps h := by
  have hbinding := hk.binding h hb.isBound
  obtain ⟨id, hb⟩ := hb
  exact ⟨id, hbinding.trans hb⟩

theorem extend {v v' : HeardWorld α} (hb : v.BoundWith caps h) (hv : v.Extends v') :
    v'.BoundWith caps h := by
  obtain ⟨n, hn⟩ := hv.handler h hb.isBound
  obtain ⟨id, hb⟩ := hb
  exact ⟨id, by rw [hn]; exact hb⟩

theorem of_bind {id : ContainerId} (hlt : h.index < w.handlers.size)
    (hbind : w.bind obs h id caps = (.ok (), w')) : w'.BoundWith caps h := by
  unfold bind at hbind
  split at hbind
  · simp at hbind
  · split at hbind
    · simp at hbind
    · cases hbind
      refine ⟨id, ?_⟩
      change ((w.modifyHandler h _).handler h).binding = _
      rw [handler_modifyHandler _ _ _ _ hlt, if_pos rfl]

theorem of_view {x : Handler} {t : Trace α} {id : ContainerId}
    (hbind : ((w.emit obs t).addHandler x).2.freshId.2.bind obs ⟨w.handlers.size⟩ id caps =
      (.ok (), w')) : w'.BoundWith caps ⟨w.handlers.size⟩ := by
  refine of_bind ?_ hbind
  simp [addHandler, freshId, emit]

end BoundWith

end World

theorem SubList.boundWith_of_openIn [Collection C α] [Positional C α] {obs : Observers ρ σ α}
    {h : HandlerRef} {x : Segment C} {start stop : Nat} {v : SubList C} {w w' : World ρ σ}
    (hopen : SubList.openIn obs h x start stop w = (.ok v, w')) :
    w'.BoundWith (Collection.capabilities C) v.handler := by
  unfold openIn at hopen
  split at hopen
  · simp at hopen
  · cases hview : w.makeRangeView obs h start stop with
    | mk r w₁ =>
      cases r with
      | error e => simp [hview] at hopen
      | ok ref =>
        obtain ⟨t, y, -, rfl, rfl⟩ := World.eq_of_makeRangeView hview
        simp only [hview] at hopen
        split at hopen
        · simp at hopen
        next w₂ hbind =>
          cases hopen
          exact .of_view hbind

theorem SortedView.boundWith_of_openIn [Collection C α] [Ord α] {obs : Observers ρ σ α}
    {h : HandlerRef} {x : SubRange C α} {b : Bounds α} {v : SortedView C α} {w w' : World ρ σ}
    (hopen : SortedView.openIn obs h x b w = (.ok v, w')) :
    w'.BoundWith (Collection.capabilities C) v.handler := by
  unfold openIn at hopen
  cases hview : w.makeKeyedView obs h with
  | mk r w₁ =>
    cases r with
    | error e => simp [hview] at hopen
    | ok ref =>
      obtain ⟨t, y, -, rfl, rfl⟩ := World.eq_of_makeKeyedView hview
      simp only [hview] at hopen
      split at hopen
      · simp at hopen
      next w₂ hbind =>
        cases hopen
        exact .of_view hbind

/-! ### Sessions -/

/-- How the frame appears in events.  Iterators appear as what they were opened on. -/
def Frame.viewpoint? : Frame κ α → Option Viewpoint
  | subList v => some ⟨v.id, v.segment.start⟩
  | sortedView v => some ⟨v.id, 0⟩
  | _ => none

namespace Session

def handlers (s : Session C κ α) : List HandlerRef := s.root.handler :: s.frames.map (·.handler)

theorem handler_mem (s : Session C κ α) : s.handler ∈ s.handlers := by
  obtain ⟨root, frames⟩ := s
  cases frames <;> simp [handler, handlers]

theorem view_seatOf (root : Watched C) (frames : List (Frame κ α)) :
    (seatOf root frames).view = frames.findSome? Frame.viewpoint? := by
  induction frames with
  | nil => rfl
  | cons f rest ih => cases f <;> first | rfl | exact ih

end Session

theorem isSome_viewpoint? (frames : List (Frame κ α)) :
    (frames.findSome? Frame.viewpoint?).isSome ↔ ∃ f ∈ frames, f.isView := by
  rw [List.findSome?_isSome_iff]
  refine exists_congr fun f => and_congr_right fun _ => ?_
  cases f <;> simp [Frame.viewpoint?, Frame.isView]

theorem Moved.handlers_eq {frames frames' : List (Frame κ α)} (h : Moved frames frames') :
    frames'.map (·.handler) = frames.map (·.handler) := by
  cases h <;> rfl

/-- The call carries an event of its phase that is well-formed.  Its kind is announced by the root
and by the handler that the operation was called on, and it names the view that is open in
front. -/
structure Turn.Announces (t : Turn C κ α) (h : Heard α) : Prop where
  phase : h.event.phase = .pre ↔ h.answer?.isSome
  wellFormed : h.event.WellFormed
  root : (t.worldBefore.handler t.before.root.handler).raisable.covers h.event.kind
  called : (t.worldBefore.handler t.before.handler).raisable.covers h.event.kind
  view : h.event.view = t.before.frames.findSome? Frame.viewpoint?
  onView : h.event.view.isSome ↔ ∃ f ∈ t.before.frames, f.isView

namespace Standard

/-- The session is sound, and its handlers were bound with the capabilities of the container. -/
structure Announcing (k : Standard α C κ) (s : Session C κ α) (w : HeardWorld α) : Prop where
  sound : k.Sound s w
  bound : ∀ h ∈ s.handlers, w.BoundWith k.capabilities h

variable {k : Standard α C κ} {obs : Observers ρ σ α} {s s' : Session C κ α} {a : Action α}
  {r : Except Error (Response α)} {e : Event α}

/-- What is opened uses the handler in front, or has one bound with the same capabilities. -/
theorem handler_of_open {w w' : World ρ σ} {o : Opening α} {f : Frame κ α}
    (hopen : k.open? obs o s w = some (.ok f, w')) :
    f.handler = s.handler ∨ w'.BoundWith k.capabilities f.handler := by
  cases o with
  | subList start stop =>
    cases k with
    | sequence =>
      obtain ⟨x, -, hx⟩ := Option.map_eq_some_iff.1 hopen
      obtain ⟨v, hv, rfl⟩ := opened_of_map (x := SubList.openIn obs s.handler x start stop w) hx
      exact .inr (SubList.boundWith_of_openIn hv)
    | queue | uniqueSet | sortedSet | bag => simp [open?, Session.open?, family] at hopen
  | range b =>
    cases k with
    | sortedSet =>
      obtain ⟨x, -, hx⟩ := Option.map_eq_some_iff.1 hopen
      obtain ⟨v, hv, rfl⟩ := opened_of_map (x := SortedView.openIn obs s.handler x b w) hx
      exact .inr (SortedView.boundWith_of_openIn hv)
    | sequence | queue | uniqueSet | bag => simp [open?, Session.open?, family] at hopen
  | subSet start stop =>
    cases k with
    | sortedSet =>
      obtain ⟨x, -, hx⟩ := Option.map_eq_some_iff.1 hopen
      obtain ⟨v, hv, rfl⟩ :=
        opened_of_map (x := SortedView.openBetween obs s.handler x start stop w) hx
      unfold SortedView.openBetween at hv
      split at hv
      · simp at hv
      · exact .inr (SortedView.boundWith_of_openIn hv)
    | sequence | queue | uniqueSet | bag => simp [open?, Session.open?, family] at hopen
  | iteration =>
    obtain ⟨it, -, hx⟩ := Option.map_eq_some_iff.1 hopen
    cases hx
    exact .inl rfl
  | listIterator =>
    cases k with
    | sequence =>
      obtain ⟨x, -, hx⟩ := Option.map_eq_some_iff.1 hopen
      cases hx
      exact .inl rfl
    | queue | uniqueSet | sortedSet | bag => simp [open?, Session.open?, family] at hopen

theorem Announcing.covers {v : HeardWorld α} {command : Command α}
    {f : C → Except Error (Mutation C α)} (ha : k.Announcing s v)
    (hf : k.mutation? s.frames command = some f) {h : HandlerRef} (hh : h ∈ s.handlers) :
    (v.handler h).raisable.covers command.kind := by
  rw [(ha.bound h hh).raisable_eq]
  exact covers_of_mutation hf

variable [ObjectIdentity α] {w w' : RecordedWorld ρ σ α}

namespace Announcing

omit [ObjectIdentity α] in
theorem asked {t : Turn C κ α} {command : Command α} {f : C → Except Error (Mutation C α)}
    {m : Mutation C α} (ha : k.Announcing t.before t.worldBefore)
    (hf : k.mutation? t.before.frames command = some f) (hm : f t.before.container = .ok m)
    (size : Nat) (answer : Bool) :
    t.Announces (.asked (t.before.seat.before m.proposal size) answer) := by
  have hkind : (t.before.seat.before m.proposal size).kind = command.kind :=
    (Modification.kind_shift ..).trans (kind_of_mutation hf hm)
  have hview := Session.view_seatOf t.before.root t.before.frames
  refine ⟨by simp [Heard.event, Heard.answer?, Event.phase, Event.isPre, Seat.before, Event.before],
    .of_before .., ?_, ?_, hview, ?_⟩
  · rw [Heard.event, hkind]
    exact ha.covers hf List.mem_cons_self
  · rw [Heard.event, hkind]
    exact ha.covers hf t.before.handler_mem
  · rw [← isSome_viewpoint?, ← hview]
    rfl

theorem told {t : Turn C κ α} {command : Command α} {f : C → Except Error (Mutation C α)}
    {m : Mutation C α} (ha : k.Announcing t.before t.worldBefore)
    (hf : k.mutation? t.before.frames command = some f) (hm : f t.before.container = .ok m)
    (hfound : m.completion.absent? = none) (preSize postSize : Nat) :
    t.Announces (.told (t.before.seat.after m.completion preSize postSize)) := by
  have hregular := regular_of_mutation ha.sound.fits hf hm
  have hkind : (t.before.seat.after m.completion preSize postSize).kind = command.kind :=
    (Modification.kind_shift ..).trans
      ((congrArg _ hregular.completes).trans (kind_of_mutation hf hm))
  have hview := Session.view_seatOf t.before.root t.before.frames
  refine ⟨by simp [Heard.event, Heard.answer?, Event.phase, Event.isPre, Seat.after, Event.after],
    .of_after _ _ _ hfound .., ?_, ?_, hview, ?_⟩
  · rw [Heard.event, hkind]
    exact ha.covers hf List.mem_cons_self
  · rw [Heard.event, hkind]
    exact ha.covers hf t.before.handler_mem
  · rw [← isSome_viewpoint?, ← hview]
    rfl

/-- **What is heard of a command is announced and well-formed.** -/
theorem heard_of_command {command : Command α} (ha : k.Announcing s w.shadow)
    (h : k.Settled command s w r s' w') :
    ∀ x ∈ (⟨.command command, s, w.shadow, r, s', w'.shadow⟩ : Turn C κ α).heard,
      (⟨.command command, s, w.shadow, r, s', w'.shadow⟩ : Turn C κ α).Announces x := by
  intro x hx
  cases h with
  | failed f e hf he =>
    have hnone : (⟨.command command, s, w.shadow, .error e, s, w.shadow⟩ : Turn C κ α).heard = [] :=
      Turn.heard_eq (List.append_nil _).symm
    simp [hnone] at hx
  | refused f m hf hm w' hkeeps hrecord =>
    rw [Turn.heard_eq hrecord] at hx
    obtain rfl := List.mem_singleton.1 hx
    exact asked ha hf hm _ false
  | accepted f m hf hm size w' hkeeps hrecord =>
    rw [Turn.heard_eq hrecord, Seat.reports] at hx
    rcases List.mem_cons.1 hx with rfl | hx
    · exact asked ha hf hm _ true
    · cases hfound : m.completion.absent? with
      | some kind => simp [hfound] at hx
      | none =>
        obtain rfl : x = .told (s.seat.after m.completion size (k.size m.container)) := by
          simpa [hfound] using hx
        exact told ha hf hm hfound ..

theorem of_command {command : Command α} (ha : k.Announcing s w.shadow)
    (h : k.Settled command s w r s' w') : k.Announcing s' w'.shadow := by
  have hkept : ∀ h ∈ s.handlers, w'.shadow.BoundWith k.capabilities h := fun h' hh' =>
    World.BoundWith.of_keeps (w := w) (ha.bound h' hh') h.keeps
  refine ⟨h.sound ha.sound, ?_⟩
  cases h with
  | failed | refused => exact hkept
  | accepted f m hf hm size w' hkeeps hrecord =>
    rw [Session.handlers] at hkept ⊢
    exact (k.moved_framesAfter command s.frames).handlers_eq ▸ hkept

/-- What is not a command leaves the handlers as they are bound, and binds those of new views. -/
theorem of_quiet (ha : k.Announcing s w.shadow) (hquiet : ∀ command, a ≠ .command command)
    (h : k.act obs.recording a s w = some (r, s', w')) : k.Announcing s' w'.shadow := by
  have hact : k.act (Judge.observers .always) a s w.shadow = some (r, s', w'.shadow) := by
    rw [k.act_shadow obs .always s w hquiet, h]
    rfl
  have hstep := ha.sound.step hact
  refine ⟨hstep.sound ha.sound, ?_⟩
  generalize w'.shadow = v at hstep hact ⊢
  cases hstep with
  | failed command | refused command | accepted command => exact absurd rfl (hquiet command)
  | answered | notOpened => exact ha.bound
  | moved m x frames hmoved hfront =>
    have hbound := ha.bound
    rw [Session.handlers] at hbound ⊢
    exact hmoved.handlers_eq ▸ hbound
  | opened o f v hf =>
    have hgrown : ∀ h ∈ s.handlers, v.BoundWith k.capabilities h := fun h hh =>
      (ha.bound h hh).extend hf.grown
    obtain ⟨⟨x, v'⟩, hopen, hx⟩ := Option.map_eq_some_iff.1 hact
    cases x with
    | error e => simp at hx
    | ok f' =>
      obtain ⟨hpush, rfl⟩ : s.push f' = s.push f ∧ v' = v := by simpa using hx
      obtain rfl : f' = f := (List.cons.inj (congrArg Session.frames hpush)).1
      have hnew : v'.BoundWith k.capabilities f'.handler := by
        rcases handler_of_open hopen with hsame | hnew
        · rw [hsame]
          exact hgrown _ s.handler_mem
        · exact hnew
      intro h hh
      rcases List.mem_cons.1 hh with rfl | hh
      · exact hgrown _ List.mem_cons_self
      · rcases List.mem_cons.1 hh with rfl | hh
        · exact hnew
        · exact hgrown _ (List.mem_cons_of_mem _ hh)
  | closed f rest hrest =>
    intro h hh
    refine ha.bound h ?_
    rcases List.mem_cons.1 hh with rfl | hh
    · exact List.mem_cons_self
    · rw [Session.handlers, hrest]
      exact List.mem_cons_of_mem _ (List.mem_cons_of_mem _ hh)

end Announcing

omit [ObjectIdentity α] in
theorem announcing_of_withRoot {inner : C} {root : HandlerRef} {party : ρ} {c : Watched C}
    {w₀ : RecordedWorld ρ σ α} (hl : obs.Loyal root)
    (hhooks : w₀.hooksOfRoot root = .policy party) (hlive : w₀.isLive root)
    (hwatch : (let _ := k.collection; Watched.withRoot obs.recording inner root w₀) = (.ok c, w)) :
    obs.Loyal c.handler ∧ k.Announcing c.session w.shadow := by
  let _ := k.collection
  have hpresides := (Watched.presides_recorded hhooks hlive hwatch).2.1
  have hlt : root.index < w₀.freshId.2.handlers.size := World.index_lt_of_isLive hlive
  simp only [Watched.withRoot, Watched.bind] at hwatch
  split at hwatch
  · simp at hwatch
  next w₁ hbind =>
    cases hwatch
    refine ⟨hl, k.sound_session hpresides, fun h hh => ?_⟩
    obtain rfl : h = root := List.mem_singleton.1 hh
    have hbound : w.BoundWith k.capabilities h := .of_bind hlt hbind
    exact hbound

/-- **Every call in every run under loyal parties is announced and well-formed.**  A standard
container is watched by a root whose hooks are a party.  Whatever is done at the container, at its
views and through its iterators, each event that the hooks are called with carries what its kind and
its phase ask for; its kind is announced by the root and by the handler of the view that the
operation was called on; and it names that view. -/
theorem run_announced (k : Standard α C κ) {obs : Observers ρ σ α} {inner : C}
    {root : HandlerRef} {party : ρ} {c : Watched C} {w₀ w : RecordedWorld ρ σ α}
    (hl : obs.Loyal root) (hhooks : w₀.hooksOfRoot root = .policy party) (hlive : w₀.isLive root)
    (hwatch : (let _ := k.collection; Watched.withRoot obs.recording inner root w₀) = (.ok c, w))
    (actions : List (Action α)) :
    ∀ t ∈ (k.recordedRun obs actions c.session w).turns, ∀ h ∈ t.heard, t.Announces h := by
  obtain ⟨hl, ha⟩ := announcing_of_withRoot hl hhooks hlive hwatch
  refine forall_recordedRun
    (fun s w => obs.Loyal s.root.handler ∧ k.Announcing s w.shadow)
    (fun {a s w r s' w'} hgood hact => ?_) actions ⟨hl, ha⟩
  obtain ⟨hl, ha⟩ := hgood
  by_cases hquiet : ∀ command, a ≠ .command command
  · obtain ⟨-, hroot, hheard⟩ := unheard_of_act ha.sound hquiet hact
    exact ⟨⟨hroot ▸ hl, ha.of_quiet hquiet hact⟩, by simp [hheard]⟩
  · obtain ⟨command, rfl⟩ : ∃ command, a = .command command := by simpa using hquiet
    have hsettled := settled_of_command hl ha.sound hact
    exact ⟨⟨hsettled.root_eq ▸ hl, ha.of_command hsettled⟩, ha.heard_of_command hsettled⟩

/-- A listener that takes identities and refuses to clear.  A value is added in a view of a view,
one is replaced through an iterator there, nothing is found to be removed, and the clearing of the
outer view is refused. -/
theorem run_announced_nested :
    let k : Standard Int (Sequence Int) PositionCursor := .sequence
    let listeners : Observers Nat Unit Int :=
      ⟨fun _ e w => (e.kind != .clear, w.freshId.2), fun _ _ w => w.freshId.2, fun _ => id,
        fun _ => id⟩
    let obs := listeners.delegating 0 ⟨1⟩
    let w₀ : RecordedWorld Nat Unit Int :=
      { handlers := #[{ role := .root ⟨0⟩ }]
        hooks := #[.policy 0, .managed ⟨[⟨1, .changing⟩], [⟨1, .changing⟩], {}⟩]
        outside := ((), []) }
    let c : Watched (Sequence Int) := .alone ⟨[1, 2, 3, 4]⟩
    let course := k.recordedRun obs
      [.openFrame (.subList 1 4), .openFrame (.subList 1 2), .command (.add 7),
        .openFrame .listIterator, .move .next, .command (.setLast 9), .close, .command (.remove 5),
        .close, .command .clear]
      c.session (Watched.withRoot obs.recording c.inner ⟨0⟩ w₀).2
    course.heard.map (fun h => (h.event.kind, h.event.view.map (·.offset))) =
        [(.add, some 2), (.add, some 2), (.setIterated, some 2), (.setIterated, some 2),
          (.remove, some 2), (.clear, some 1)] ∧
      ∀ t ∈ course.turns, ∀ h ∈ t.heard, t.Announces h := by
  intro k listeners obs w₀ c course
  have hdiscreet : listeners.Discreet ⟨0⟩ :=
    ⟨fun _ _ _ => .of_outside rfl rfl, fun _ _ _ => .of_outside rfl rfl⟩
  have hwatch : Watched.withRoot obs.recording c.inner ⟨0⟩ w₀ =
      (.ok c, (Watched.withRoot obs.recording c.inner ⟨0⟩ w₀).2) := rfl
  refine ⟨?_, run_announced k (hdiscreet.delegating 0 ⟨1⟩).loyal rfl rfl hwatch _⟩
  decide +kernel +zetaReduce

end Standard

end WatchedContainers
