import WatchedContainers.Handler.Reentrance
import WatchedContainers.Proofs.Run

/-!
# The size a root remembers

A root has room for one size.  Parties that call the handlers again, before the operation that
they were called for is done, put other sizes there.

* `World.Recalls`: the root remembers the size of the last proposal that the traces tell of.
* `Observers.Reenters.recalling`: **parties that re-enter keep it so**, however deep their calls are
  nested.
* `Standard.act_repeats_last`: **an operation is reported with the size given last**, by itself or
  by a call made from inside its own proposal.
-/

namespace WatchedContainers

variable {ρ σ C κ α : Type}

namespace Trace

variable {root : HandlerRef} {size : Nat} {calls more : List (Trace α)}

theorem proposedSize?_of_ne {t : Trace α} (ht : ∀ e : Event α, e.isPre → t ≠ .dispatching e) :
    t.proposedSize? root = none := by
  cases t with
  | dispatching e => exact if_neg fun he => ht e he.1 rfl
  | _ => rfl

theorem lastSize_append :
    lastSize root size (calls ++ more) = lastSize root (lastSize root size calls) more := by
  unfold lastSize
  rw [List.filterMap_append, List.getLast?_append]
  cases (more.filterMap (proposedSize? root)).getLast? <;> rfl

theorem lastSize_eq_self (h : ∀ t ∈ calls, t.proposedSize? root = none) :
    lastSize root size calls = size := by
  unfold lastSize
  rw [List.filterMap_eq_nil_iff.2 h]
  rfl

end Trace

namespace World

variable {w w' w'' : World ρ σ} {root : HandlerRef}

/-! ### What calls come to -/

/-- A proposal is one question to some root, unless no root is reached. -/
theorem propose_cases (w : World ρ σ) (obs : Observers ρ σ α) (h : HandlerRef)
    (m : Modification α) (size : Nat) :
    (w.propose obs h m size).2 = w ∨
      (∃ t, (∀ e, t ≠ .dispatching e) ∧ (w.propose obs h m size).2 = w.emit obs t) ∨
      ∃ found observed m' view, (w.handler found).isBound ∧ (w.propose obs h m size).2 =
        (w.ask obs found (.before observed found m' view size)).2 := by
  unfold propose reachRoot
  cases (w.handler h).binding with
  | none => exact .inl rfl
  | some b =>
    cases w.root? h with
    | none => exact .inr (.inl ⟨.rootGone _, nofun, rfl⟩)
    | some found =>
      simp only
      cases hb : (w.handler found).binding with
      | none =>
        left
        simp only [proposeAtRoot, hb]
      | some b' =>
        right
        right
        exact ⟨found, b'.container, _, _, by simp [Handler.isBound, hb],
          congrArg Prod.snd (proposeAtRoot_of_binding hb ..)⟩

/-- A conclusion is one message to some root, unless no root is reached or nothing was removed. -/
theorem conclude_cases [ObjectIdentity α] (w : World ρ σ) (obs : Observers ρ σ α) (h : HandlerRef)
    (c : Completion α) (size : Nat) :
    (w.conclude obs h c size).2 = w ∨
      (∃ t, (∀ e, t ≠ .dispatching e) ∧ (w.conclude obs h c size).2 = w.emit obs t) ∨
      ∃ found observed offset view preSize, (w.handler found).isBound ∧
        (w.conclude obs h c size).2 =
          w.tell obs found (.after observed found offset c view preSize size) := by
  unfold conclude reachRoot
  cases c.absent? with
  | some kind => exact .inr (.inl ⟨.nothingRemoved kind, nofun, rfl⟩)
  | none =>
    cases (w.handler h).binding with
    | none => exact .inl rfl
    | some b =>
      cases w.root? h with
      | none => exact .inr (.inl ⟨.rootGone _, nofun, rfl⟩)
      | some found =>
        simp only
        cases hb : (w.handler found).binding with
        | none =>
          left
          simp only [concludeAtRoot, hb]
        | some b' =>
          right
          right
          exact ⟨found, b'.container, _, _, _, by simp [Handler.isBound, hb],
            congrArg Prod.snd (concludeAtRoot_of_binding hb ..)⟩

/-- What every party leaves alone, and traces and poised roots too, is left alone by a proposal. -/
theorem propose_induction {obs : Observers ρ σ α} {R : World ρ σ → World ρ σ → Prop}
    (hrefl : ∀ w, R w w) (htrans : ∀ {w w' w''}, R w w' → R w' w'' → R w w'')
    (hdecide : ∀ party e w, R w (obs.decide party e w).2)
    (hemit : ∀ w t, (∀ e : Event α, e.isPre → t ≠ .dispatching e) → R w (w.emit obs t))
    (hpoised : ∀ w found observed m view size,
      R w (w.poised obs found (.before observed found m view size)))
    (w : World ρ σ) (h : HandlerRef) (m : Modification α) (size : Nat) :
    R w (w.propose obs h m size).2 := by
  rcases w.propose_cases obs h m size with
    heq | ⟨t, ht, heq⟩ | ⟨found, observed, m', view, -, heq⟩
  · rw [heq]
    exact hrefl w
  · rw [heq]
    exact hemit w t fun e _ => ht e
  · rw [heq]
    exact htrans (hpoised w found observed m' view size)
      (ask_induction hrefl htrans hdecide w _ fun w => hemit w _ nofun)

/-- What every party leaves alone, and traces too, is left alone by a conclusion. -/
theorem conclude_induction [ObjectIdentity α] {obs : Observers ρ σ α}
    {R : World ρ σ → World ρ σ → Prop} (hrefl : ∀ w, R w w)
    (htrans : ∀ {w w' w''}, R w w' → R w' w'' → R w w'')
    (hnotify : ∀ party e w, R w (obs.notify party e w))
    (hemit : ∀ w t, (∀ e : Event α, e.isPre → t ≠ .dispatching e) → R w (w.emit obs t))
    (w : World ρ σ) (h : HandlerRef) (c : Completion α) (size : Nat) :
    R w (w.conclude obs h c size).2 := by
  rcases w.conclude_cases obs h c size with
    heq | ⟨t, ht, heq⟩ | ⟨found, observed, offset, view, preSize, -, heq⟩
  · rw [heq]
    exact hrefl w
  · rw [heq]
    exact hemit w t fun e _ => ht e
  · rw [heq]
    exact tell_induction hrefl htrans hnotify w _ (hemit w _ (by rintro e he ⟨⟩; cases he))

/-! ### What a root remembers -/

/-- From `w` to `w'` more traces were kept, and if they tell of proposals that reached the root
then it remembers the size of the last. -/
structure Recalls (log : σ → List (Trace α)) (root : HandlerRef) (w w' : World ρ σ) : Prop
    extends Keeps root w w' where
  recalled : root.index < w.handlers.size → ∃ calls,
    log w'.outside = log w.outside ++ calls ∧
      (w'.handler root).preSize = Trace.lastSize root (w.handler root).preSize calls

variable {log : σ → List (Trace α)}

namespace Recalls

theorem refl (w : World ρ σ) : Recalls log root w w :=
  ⟨.refl root w, fun _ => ⟨[], (List.append_nil _).symm, rfl⟩⟩

theorem trans (hw : Recalls log root w w') (hw' : Recalls log root w' w'') :
    Recalls log root w w'' := by
  refine ⟨hw.toKeeps.trans hw'.toKeeps, fun hlt => ?_⟩
  obtain ⟨calls, hlog, hsize⟩ := hw.recalled hlt
  obtain ⟨more, hlog', hsize'⟩ := hw'.recalled (Nat.lt_of_lt_of_le hlt hw.size_le)
  exact ⟨calls ++ more, by rw [hlog', hlog, List.append_assoc],
    by rw [hsize', hsize, Trace.lastSize_append]⟩

theorem of_spares {calls : List (Trace α)} (hw : Spares root w w')
    (hlog : log w'.outside = log w.outside ++ calls)
    (hcalls : ∀ t ∈ calls, t.proposedSize? root = none) : Recalls log root w w' :=
  ⟨hw.toKeeps, fun _ => ⟨calls, hlog, hw.preSize.trans (Trace.lastSize_eq_self hcalls).symm⟩⟩

end Recalls

end World

/-- Every trace is kept, and whatever a party does when it is called, the root remembers the size of
the last proposal. -/
structure Observers.Recalling (log : σ → List (Trace α)) (root : HandlerRef)
    (obs : Observers ρ σ α) : Prop where
  trace : ∀ t x, log (obs.trace t x) = log x ++ [t]
  decide : ∀ party e w, World.Recalls log root w (obs.decide party e w).2
  notify : ∀ party e w, World.Recalls log root w (obs.notify party e w)

namespace Observers.Recalling

variable {obs : Observers ρ σ α} {root : HandlerRef} {log : σ → List (Trace α)}
  (ho : obs.Recalling log root)

include ho

theorem loyal : obs.Loyal root where
  decide party e w := (ho.decide party e w).toKeeps
  notify party e w := (ho.notify party e w).toKeeps

theorem emit (w : World ρ σ) {t : Trace α} (ht : t.proposedSize? root = none) :
    World.Recalls log root w (w.emit obs t) :=
  .of_spares (w.emit_spares t) (ho.trace t w.outside) (by simpa using ht)

/-- The root that is about to ask its hooks remembers the size it asks about, and every other root
remembers what it did. -/
theorem poised (w : World ρ σ) (found : HandlerRef) (observed : ContainerId) (m : Modification α)
    (view : Option Viewpoint) (size : Nat) :
    World.Recalls log root w (w.poised obs found (.before observed found m view size)) := by
  refine ⟨(w.keeps_remember found size).trans (World.emit_spares _ _).toKeeps, fun hlt => ?_⟩
  refine ⟨[.dispatching (.before observed found m view size)], ho.trace _ w.outside, ?_⟩
  change ((w.modifyHandler found fun x => { x with preSize := size }).handler root).preSize = _
  rw [World.handler_modifyHandler _ _ _ _ hlt]
  by_cases heq : found = root
  · have hsize : (Trace.dispatching (.before observed found m view size)).proposedSize? root =
        some size := if_pos ⟨rfl, heq⟩
    rw [if_pos heq, Trace.lastSize, List.filterMap_cons_some hsize]
    rfl
  · have hnone : (Trace.dispatching (.before observed found m view size)).proposedSize? root =
        none := if_neg fun h => heq h.2
    rw [if_neg heq, Trace.lastSize_eq_self]
    simpa using hnone

theorem asked (w : World ρ σ) (found : HandlerRef) (e : Event α) :
    World.Recalls log root (w.poised obs found e) (w.ask obs found e).2 :=
  World.ask_induction .refl .trans ho.decide w e fun w => ho.emit w rfl

theorem propose (w : World ρ σ) (h : HandlerRef) (m : Modification α) (size : Nat) :
    World.Recalls log root w (w.propose obs h m size).2 :=
  World.propose_induction .refl .trans ho.decide
    (fun w _ ht => ho.emit w (Trace.proposedSize?_of_ne ht)) ho.poised w h m size

theorem conclude [ObjectIdentity α] (w : World ρ σ) (h : HandlerRef) (c : Completion α)
    (size : Nat) : World.Recalls log root w (w.conclude obs h c size).2 :=
  World.conclude_induction .refl .trans ho.notify
    (fun w _ ht => ho.emit w (Trace.proposedSize?_of_ne ht)) w h c size

/-- From a proposal to its answer, the traces tell first of it and then of what was done inside it,
and the root remembers the last size of both. -/
theorem ask {w : World ρ σ} {observed : ContainerId} (hw : w.Hosts root observed)
    (m : Modification α) (view : Option Viewpoint) (size : Nat) :
    let e := Event.before observed root m view size
    ∃ calls, log (w.ask obs root e).2.outside = log w.outside ++ .dispatching e :: calls ∧
      ((w.ask obs root e).2.handler root).preSize = Trace.lastSize root size calls := by
  intro e
  have hlt := World.index_lt_of_isLive hw.live
  have hpoised : root.index < (w.poised obs root e).handlers.size :=
    Nat.lt_of_lt_of_le hlt (w.poised_keeps obs e).size_le
  obtain ⟨calls, hlog, hsize⟩ := (ho.asked w root e).recalled hpoised
  refine ⟨calls, ?_, ?_⟩
  · rw [hlog]
    change log (obs.trace (.dispatching e) w.outside) ++ calls = _
    rw [ho.trace, List.append_assoc, List.singleton_append]
  · rw [hsize, World.preSize_poised hlt]
    rfl

end Observers.Recalling

/-! ### Parties that re-enter -/

theorem Observers.ActsBy.mono {obs : Observers ρ σ α} {log : σ → List (Trace α)}
    {deed deed' : World ρ σ → World ρ σ → Prop}
    (hdeed : ∀ w w', deed w w' → deed' w w') (ho : obs.ActsBy log deed) :
    obs.ActsBy log deed' where
  trace := ho.trace
  decide party e w := Relation.ReflTransGen.mono hdeed _ _ (ho.decide party e w)
  notify party e w := Relation.ReflTransGen.mono hdeed _ _ (ho.notify party e w)

section Reentering

variable [ObjectIdentity α] {obs : Observers ρ σ α} {w w' : World ρ σ} {root : HandlerRef}
  {log : σ → List (Trace α)}

/-- **Every deed is recalled** if those that answer it recall theirs. -/
theorem World.Deed.recalls {inner : Observers ρ σ α → Prop}
    (hinner : ∀ obs, inner obs → obs.Recalling log root) (h : World.Deed log root inner w w') :
    World.Recalls log root w w' := by
  cases h with
  | propose obs hobs _ h m size => exact (hinner obs hobs).propose w h m size
  | conclude obs hobs _ h c size => exact (hinner obs hobs).conclude w h c size
  | elsewhere _ _ calls hspares hlog hcalls => exact .of_spares hspares hlog hcalls

theorem Observers.ActsBy.recalling {inner : Observers ρ σ α → Prop}
    (hinner : ∀ obs, inner obs → obs.Recalling log root)
    (ho : obs.ActsBy log (World.Deed log root inner)) : obs.Recalling log root := by
  have hdeeds : ∀ w w' : World ρ σ, Relation.ReflTransGen (World.Deed log root inner) w w' →
      World.Recalls log root w w' := by
    intro w w' h
    induction h with
    | refl => exact .refl w
    | tail _ hdeed ih => exact ih.trans (hdeed.recalls hinner)
  exact ⟨ho.trace, fun party e w => hdeeds _ _ (ho.decide party e w),
    fun party e w => hdeeds _ _ (ho.notify party e w)⟩

/-- **Parties that re-enter recall the last proposal**, however deep their calls are nested. -/
theorem Observers.Reenters.recalling {depth : Nat} (h : obs.Reenters log root depth) :
    obs.Recalling log root := by
  induction depth generalizing obs with
  | zero => exact ActsBy.recalling (fun _ hnone => hnone.elim) h
  | succ depth ih => exact ActsBy.recalling (fun _ hinner => ih hinner) h

theorem World.Deed.mono {inner inner' : Observers ρ σ α → Prop}
    (hinner : ∀ obs, inner obs → inner' obs) (h : World.Deed log root inner w w') :
    World.Deed log root inner' w w' := by
  cases h with
  | propose obs hobs _ h m size => exact .propose obs (hinner obs hobs) w h m size
  | conclude obs hobs _ h c size => exact .conclude obs (hinner obs hobs) w h c size
  | elsewhere _ _ calls hspares hlog hcalls => exact .elsewhere w w' calls hspares hlog hcalls

/-- Parties need not nest their calls as deep as they may. -/
theorem Observers.Reenters.succ {depth : Nat} (h : obs.Reenters log root depth) :
    obs.Reenters log root (depth + 1) := by
  induction depth generalizing obs with
  | zero => exact ActsBy.mono (fun _ _ hdeed => hdeed.mono fun _ hnone => hnone.elim) h
  | succ depth ih => exact ActsBy.mono (fun _ _ hdeed => hdeed.mono fun _ hinner => ih hinner) h

theorem Observers.Reenters.proposing {depth : Nat} (h : obs.Reenters log root depth)
    (m : Modification α) (size : Nat) :
    (obs.proposing m size).Reenters log root (depth + 1) := by
  have hacts : obs.ActsBy log (World.Deed log root (Reenters log root depth)) := h.succ
  exact ⟨hacts.trace, fun party e w =>
    .head (.propose obs h w e.handler m size) (hacts.decide party e _), hacts.notify⟩

theorem Observers.reenters_scribe (depth : Nat) :
    (scribe : Observers ρ (List (Trace α)) α).Reenters id root depth := by
  induction depth with
  | zero => exact ⟨fun _ _ => rfl, fun _ _ _ => .refl, fun _ _ _ => .refl⟩
  | succ depth ih => exact ih.succ

/-! ### Operations -/

variable {k : Standard α C κ} {s : Session C κ α}

/-- **An operation is reported with the size given last.**  The parties may re-enter to any depth.
If a command of a session is accepted and has something to report, then the report has the size of
the last proposal that reached the root since the operation was proposed, and only if there was none
the size of the operation's own proposal. -/
theorem Standard.act_repeats_last (hfits : k.Fits s.container s.frames)
    (hseat : w.Seated s.handler s.seat) {depth : Nat} (ho : obs.Reenters log s.seat.root depth)
    {command : Command α} {m : Mutation C α}
    (hm : (k.mutation? s.frames command).map (· s.container) = some (.ok m))
    (hfound : m.completion.absent? = none)
    (hyes : (w.ask obs s.seat.root (s.seat.before m.proposal (k.size s.container))).1) :
    let e := s.seat.before m.proposal (k.size s.container)
    let asked := (w.ask obs s.seat.root e).2
    ∃ calls, log asked.outside = log w.outside ++ .dispatching e :: calls ∧
      k.act obs (.command command) s w = some (.ok m.response, k.afterward command s m.container,
        asked.tell obs s.seat.root (s.seat.after m.completion
          (Trace.lastSize s.seat.root (k.size s.container) calls) (k.size m.container))) := by
  intro e asked
  obtain ⟨f, hf, hfm⟩ := Option.map_eq_some_iff.1 hm
  have hrecalls := ho.recalling
  obtain ⟨calls, hlog, hsize⟩ := hrecalls.ask hseat.hosts (m.proposal.shift s.seat.offset)
    s.seat.view (k.size s.container)
  refine ⟨calls, hlog, ?_⟩
  have hask : w.ask obs s.seat.root e = (true, asked) := Prod.ext hyes rfl
  rw [act_of_seated hfits hseat hrecalls.loyal, hf, Option.map_some, hfm, outcome, hask]
  simp only [World.report, hfound]
  rw [← hsize]
  rfl

end Reentering

namespace Standard

/-- A listener that is asked whether an element may be added to a list of three asks in its turn
whether the list of four that this would make may be cleared. -/
theorem act_repeats_last_nested :
    let k : Standard Int (Sequence Int) PositionCursor := .sequence
    let obs : Observers Nat (List (Trace Int)) Int := Observers.scribe.proposing .clear 4
    let w : World Nat (List (Trace Int)) :=
      { nextId := 2
        handlers := #[{ role := .root ⟨0⟩, binding := some ⟨⟨1⟩, k.capabilities⟩ }]
        hooks := #[.managed ⟨[⟨0, .adding⟩], [⟨1, .changing⟩], {}⟩]
        outside := [] }
    let s : Session (Sequence Int) PositionCursor Int := (Watched.alone ⟨[1, 2, 3]⟩).session
    let e := s.seat.before (.add 1) 3
    let asked := (w.ask obs ⟨0⟩ e).2
    (asked.handler ⟨0⟩).preSize = 4 ∧
      ∃ calls, asked.outside = .dispatching e :: calls ∧
        k.act obs (.command (.add 1)) s w = some (.ok (.flag true),
          k.afterward (.add 1) s ⟨[1, 2, 3, 1]⟩, asked.tell obs ⟨0⟩
            (s.seat.after (.add 1 true) (Trace.lastSize ⟨0⟩ 3 calls) 4)) := by
  intro k obs w s e asked
  let m : Mutation (Sequence Int) Int := ⟨.add 1, .add 1 true, .flag true, ⟨[1, 2, 3, 1]⟩⟩
  have hm : (k.mutation? s.frames (.add 1)).map (· s.container) = some (.ok m) := rfl
  have hseat : w.Seated s.handler s.seat := World.Hosts.seated ⟨rfl, rfl, rfl⟩
  have hobs : obs.Reenters id s.seat.root 1 := (Observers.reenters_scribe 0).proposing .clear 4
  have hyes : (w.ask obs s.seat.root (s.seat.before m.proposal (k.size s.container))).1 := by
    decide +kernel
  exact ⟨by decide +kernel, act_repeats_last (k.fits_nil _) hseat hobs hm rfl hyes⟩

/-- There the addition is proposed at size three and reported at size four, although the list had
three elements before it. -/
theorem act_misreports_size :
    let k : Standard Int (Sequence Int) PositionCursor := .sequence
    let obs : Observers Nat (List (Trace Int)) Int := Observers.scribe.proposing .clear 4
    let w : World Nat (List (Trace Int)) :=
      { nextId := 2
        handlers := #[{ role := .root ⟨0⟩, binding := some ⟨⟨1⟩, k.capabilities⟩ }]
        hooks := #[.managed ⟨[⟨0, .adding⟩], [⟨1, .changing⟩], {}⟩]
        outside := [] }
    let dispatched : Trace Int → Option (Kind × Phase × Nat)
      | .dispatching e => some (e.kind, e.phase, e.preSize)
      | _ => none
    (k.act obs (.command (.add 1)) (Watched.alone ⟨[1, 2, 3]⟩).session w).map
        (fun (_, _, w') => w'.outside.filterMap dispatched) =
      some [(.add, .pre, 3), (.clear, .pre, 4), (.add, .post, 4)] := by
  decide +kernel

end Standard

end WatchedContainers
