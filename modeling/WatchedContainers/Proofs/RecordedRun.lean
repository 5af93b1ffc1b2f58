import WatchedContainers.Proofs.Recording

/-!
# Recorded runs

Parties that are loyal may do more than to decide: they make handlers, take identities, register
listeners.  What a turn does to the session, and what the root's hooks hear of it, is still what it
would be under a judge that gives the same answer.

* `Standard.Resembles`: a turn that starts from a sound session and is a step under some judge.
* `Standard.resembles_of_act`: **every action under discreet parties is such a turn**.
* `Standard.links_recordedRun`: the turns of a recorded run are linked.
-/

namespace WatchedContainers

open Session (Served seatOf handlerOf)

variable {ρ σ C κ α : Type}

/-! ### Shadows -/

namespace World

variable {obs : Observers ρ σ α} {w w' : RecordedWorld ρ σ α} {h root : HandlerRef}
  {observed : ContainerId} {seat : Seat} {party : ρ}

theorem hooksAt_shadow (w : RecordedWorld ρ σ α) (ref : HooksRef) :
    w.shadow.hooksAt ref = (w.hooksAt ref).shade := by
  simp only [hooksAt, shadow, map, Array.getD_eq_getD_getElem?, Array.getElem?_map]
  cases w.hooks[ref.index]? <;> rfl

theorem hooksOfRoot_shadow (w : RecordedWorld ρ σ α) (root : HandlerRef) :
    w.shadow.hooksOfRoot root = (w.hooksOfRoot root).shade := by
  have hh : w.shadow.handler root = w.handler root := rfl
  unfold hooksOfRoot
  rw [hh]
  split
  · exact w.hooksAt_shadow _
  · rfl

theorem shade_eq_policy {hooks : Hooks ρ} :
    hooks.shade = .policy () ↔ ∃ party, hooks = .policy party := by
  cases hooks <;> simp [Hooks.shade]

theorem bind_shadow (w : RecordedWorld ρ σ α) (obs : Observers ρ σ α) (j : Judge α)
    (h : HandlerRef) (id : ContainerId) (caps : Capabilities) :
    w.shadow.bind j.observers h id caps =
      ((w.bind obs.recording h id caps).1, (w.bind obs.recording h id caps).2.shadow) :=
  map_bind (fun _ _ => rfl) w h id caps

theorem seated_shadow : w.shadow.Seated h seat ↔ w.Seated h seat :=
  ⟨fun hs => ⟨⟨hs.hosts.isRoot, hs.hosts.bound, hs.hosts.live⟩, hs.reaches, hs.seen⟩,
    fun hs => ⟨⟨hs.hosts.isRoot, hs.hosts.bound, hs.hosts.live⟩, hs.reaches, hs.seen⟩⟩

theorem Keeps.hooksOfRoot (hk : Keeps root w w') (hlt : root.index < w.handlers.size)
    (hp : w.hooksOfRoot root = .policy party) : w'.hooksOfRoot root = .policy party := by
  unfold World.hooksOfRoot at hp ⊢
  rw [hk.role root hlt]
  split at hp
  · exact hk.policy _ _ hp
  · simp at hp

/-- A root that calls a party presides in the shadow. -/
theorem Hosts.presides_shadow (hw : w.Hosts root observed)
    (hp : w.hooksOfRoot root = .policy party) : w.shadow.Presides root observed where
  hooks := (w.hooksOfRoot_shadow root).trans (shade_eq_policy.2 ⟨party, hp⟩)
  bound := hw.bound
  live := hw.live

/-- **Handlers stay attached in the shadow** while the parties are loyal. -/
theorem attached_shadow (ha : w.shadow.Attached h seat) (hk : Keeps seat.root w w') :
    w'.shadow.Attached h seat := by
  have hs := (seated_shadow.1 ha.seated).of_keeps hk
  obtain ⟨party, hp⟩ := shade_eq_policy.1 ((w.hooksOfRoot_shadow _).symm.trans ha.presides.hooks)
  have hp' := hk.hooksOfRoot (index_lt_of_isLive (seated_shadow.1 ha.seated).hosts.live) hp
  exact ⟨hs.hosts.presides_shadow hp', hs.reaches, hs.seen⟩

end World

theorem Session.served_shadow {w w' : RecordedWorld ρ σ α} {root : Watched C}
    {frames : List (Frame κ α)} (hk : World.Keeps root.handler w w')
    (h : Served w.shadow root frames) : Served w'.shadow root frames := by
  induction frames with
  | nil => exact World.attached_shadow h hk
  | cons f rest ih =>
    refine ⟨World.attached_shadow h.1 ?_, ih h.2⟩
    rw [root_seatOf]
    exact hk

/-- **A watched container has a root that presides in the shadow**, if the hooks of the root are a
party. -/
theorem Watched.presides_recorded [Collection C α] {obs : Observers ρ σ α} {inner : C}
    {root : HandlerRef} {party : ρ} {w w' : RecordedWorld ρ σ α} {c : Watched C}
    (hhooks : w.hooksOfRoot root = .policy party) (hlive : w.isLive root)
    (h : Watched.withRoot obs.recording inner root w = (.ok c, w')) :
    c.inner = inner ∧ w'.shadow.Presides c.handler c.id ∧ w'.record = w.record := by
  have hshadow : w.shadow.hooksOfRoot root = .policy () :=
    (w.hooksOfRoot_shadow root).trans (World.shade_eq_policy.2 ⟨party, hhooks⟩)
  refine Watched.presides_withRoot (j := .always) hshadow hlive ?_
  have hbind : w.shadow.freshId.2.bind Judge.always.observers root w.shadow.freshId.1
      (Collection.capabilities C) = ((w.freshId.2.bind obs.recording root w.freshId.1
        (Collection.capabilities C)).1, (w.freshId.2.bind obs.recording root w.freshId.1
          (Collection.capabilities C)).2.shadow) :=
    w.freshId.2.bind_shadow obs .always root w.freshId.1 _
  simp only [withRoot, bind, hbind] at h ⊢
  cases hb : w.freshId.2.bind obs.recording root w.freshId.1 (Collection.capabilities C) with
  | mk r w'' =>
    rw [hb] at h
    cases r with
    | error e => cases h
    | ok u =>
      cases h
      rfl

/-! ### What is recorded -/

theorem Observers.Discreet.recording {obs : Observers ρ σ α} {root : HandlerRef}
    (hd : obs.Discreet root) : obs.recording.Discreet root where
  decide party e w := by
    have h := hd.decide party e w.unrecorded
    exact ⟨⟨h.size_le, h.role, h.binding, h.policy, h.live⟩, h.preSize⟩
  notify party e w := by
    have h := hd.notify party e w.unrecorded
    exact ⟨⟨h.size_le, h.role, h.binding, h.policy, h.live⟩, h.preSize⟩

/-- Hooks with discreet listeners are discreet. -/
theorem Observers.Discreet.delegating [DecidableEq ρ] {obs : Observers ρ σ α} {root : HandlerRef}
    (hd : obs.Discreet root) (stand : ρ) (ref : HooksRef) :
    (obs.delegating stand ref).Discreet root where
  decide party e w := by
    unfold Observers.delegating
    simp only
    split
    · exact Hooks.decide_induction (.refl root) .trans hd.decide ..
    · exact hd.decide party e w
  notify party e w := by
    unfold Observers.delegating
    simp only
    split
    · exact Hooks.notify_induction (.refl root) .trans hd.notify ..
    · exact hd.notify party e w

namespace World

variable {obs : Observers ρ σ α} {w w' : RecordedWorld ρ σ α} {root : HandlerRef} {seat : Seat}
  {party : ρ}

theorem record_ask (obs : Observers ρ σ α) (hp : w.hooksOfRoot root = .policy party)
    (hlt : root.index < w.handlers.size) (e : Event α) :
    (w.ask obs.recording root e).2.record =
      w.record ++ [.asked e (w.ask obs.recording root e).1] := by
  have hpoised := (w.poised_keeps obs.recording e).hooksOfRoot hlt hp
  unfold ask
  rw [hpoised]
  have hrecord : (Hooks.decide obs.recording (.policy party) e
      (w.poised obs.recording root e)).2.record = w.record ++
        [.asked e (Hooks.decide obs.recording (.policy party) e
          (w.poised obs.recording root e)).1] := rfl
  cases hb : Hooks.decide obs.recording (.policy party) e (w.poised obs.recording root e) with
  | mk b w' =>
    rw [hb] at hrecord
    cases b <;> exact hrecord

theorem record_tell (hp : w.hooksOfRoot root = .policy party) (e : Event α) :
    (w.tell obs.recording root e).record = w.record ++ [.told e] := by
  have hemit : (w.emit obs.recording (.dispatching e)).hooksOfRoot root = .policy party := hp
  simp only [tell, hemit]
  rfl

theorem record_report [ObjectIdentity α] (obs : Observers ρ σ α)
    (hp : w.hooksOfRoot seat.root = .policy party) (c : Completion α) (size : Nat) :
    (w.report obs.recording seat c size).record =
      w.record ++ seat.reports c (w.handler seat.root).preSize size := by
  unfold report Seat.reports
  cases hc : c.absent? with
  | some kind => exact (List.append_nil _).symm
  | none => exact record_tell hp _

end World

/-! ### Turns -/

namespace Standard

/-- As far as the session and the root's hooks are concerned, the turn is a step under some judge.
It starts from a sound session. -/
structure Resembles [ObjectIdentity α] (k : Standard α C κ) (t : Turn C κ α) : Prop where
  sound : k.Sound t.before t.worldBefore
  step : ∃ j w', k.Step j t.before t.worldBefore t.action t.response t.after w' ∧
    w'.outside = t.worldAfter.outside

variable [ObjectIdentity α] {k : Standard α C κ} {obs : Observers ρ σ α} {s s' : Session C κ α}
  {w w' : RecordedWorld ρ σ α} {a : Action α} {r : Except Error (Response α)}

/-- Only commands depend on the parties. -/
theorem act_shadow (k : Standard α C κ) (obs : Observers ρ σ α) (j : Judge α) (s : Session C κ α)
    (w : RecordedWorld ρ σ α) (ha : ∀ command, a ≠ .command command) :
    k.act j.observers a s w.shadow =
      (k.act obs.recording a s w).map fun (r, s', w') => (r, s', w'.shadow) := by
  cases a with
  | command command => exact absurd rfl (ha command)
  | query q =>
    change (k.answer? q s).map _ = ((k.answer? q s).map _).map _
    rw [Option.map_map]
    rfl
  | move m =>
    change (k.move? m s).map _ = ((k.move? m s).map _).map _
    rw [Option.map_map]
    rfl
  | openFrame o =>
    have hopen : k.open? j.observers o s w.shadow =
        (k.open? obs.recording o s w).map fun x => (x.1, x.2.shadow) :=
      k.map_open? (fun _ _ => rfl) w o s
    change (k.open? j.observers o s w.shadow).map _ = ((k.open? obs.recording o s w).map _).map _
    rw [hopen, Option.map_map, Option.map_map]
    refine congrArg (fun f => (k.open? obs.recording o s w).map f) (funext fun x => ?_)
    obtain ⟨r, w'⟩ := x
    cases r <;> rfl
  | close =>
    obtain ⟨root, frames⟩ := s
    cases frames <;> rfl

/-- A command under discreet parties is a step under the judge that gives their answer. -/
theorem resembles_of_command (hd : obs.Discreet s.root.handler) (hs : k.Sound s w.shadow)
    {command : Command α} (h : k.act obs.recording (.command command) s w = some (r, s', w')) :
    k.Resembles ⟨.command command, s, w.shadow, r, s', w'.shadow⟩ ∧ k.Sound s' w'.shadow := by
  have hatt : w.shadow.Attached s.handler s.seat := by
    rw [s.handler_eq]
    exact hs.served.attached
  have hroot : s.seat.root = s.root.handler := Session.root_seatOf _ _
  have hseat := World.seated_shadow.1 hatt.seated
  have hlt := World.index_lt_of_isLive hseat.hosts.live
  obtain ⟨party, hp⟩ :=
    World.shade_eq_policy.1 ((w.hooksOfRoot_shadow _).symm.trans hatt.presides.hooks)
  have hrec : obs.recording.Discreet s.seat.root := hroot ▸ hd.recording
  rw [act_of_seated hs.fits hseat hrec.loyal, Option.map_eq_some_iff] at h
  obtain ⟨f, hf, h⟩ := h
  cases hm : f s.container with
  | error e =>
    rw [hm] at h
    cases h
    exact ⟨⟨hs, .always, w.shadow, .failed command f e hf hm, rfl⟩, hs⟩
  | ok m =>
    rw [hm] at h
    let e := s.seat.before m.proposal (k.size s.container)
    have hkept := World.ask_keeps hrec.loyal w e
    have hrecord := World.record_ask obs hp hlt e
    have hsize := World.preSize_ask hrec hlt e
    simp only [outcome] at h
    cases hask : w.ask obs.recording s.seat.root e with
    | mk answer w₁ =>
      rw [hask] at h hkept hrecord hsize
      cases answer with
      | false =>
        cases h
        have hstep : k.Step (fun _ _ => false) s w.shadow (.command command) _ _ _ :=
          .refused command f m hf hm rfl
        refine ⟨⟨hs, _, _, hstep, hrecord.symm⟩, ?_, hs.fits⟩
        exact Session.served_shadow (hroot ▸ hkept) hs.served
      | true =>
        cases h
        have hreport := World.record_report obs (hkept.hooksOfRoot hlt hp) m.completion
          (k.size m.container)
        have hkept' := hkept.trans
          (World.report_keeps s.seat hrec.loyal w₁ m.completion (k.size m.container))
        have hstep : k.Step (fun _ _ => true) s w.shadow (.command command) (.ok m.response) _ _ :=
          .accepted command f m hf hm rfl
        refine ⟨⟨hs, _, _, hstep, ?_⟩, ?_, (hstep.sound hs).fits⟩
        · change w.record ++ _ = (World.report _ _ _ _ w₁).record
          rw [hreport, hrecord, hsize, List.append_assoc]
          rfl
        · have hserved := (k.moved_framesAfter command s.frames).served hs.served
          exact Session.served_shadow (hroot ▸ hkept') (hserved.inner m.container)

/-- **Every action under discreet parties** is a step under some judge. -/
theorem resembles_of_act (hd : obs.Discreet s.root.handler) (hs : k.Sound s w.shadow)
    (h : k.act obs.recording a s w = some (r, s', w')) :
    k.Resembles ⟨a, s, w.shadow, r, s', w'.shadow⟩ ∧ k.Sound s' w'.shadow := by
  by_cases ha : ∀ command, a ≠ .command command
  · have hact := k.act_shadow obs .always s w ha
    rw [h] at hact
    have hstep := hs.step hact
    exact ⟨⟨hs, .always, w'.shadow, hstep, rfl⟩, hstep.sound hs⟩
  · obtain ⟨command, rfl⟩ : ∃ command, a = .command command := by simpa using ha
    exact resembles_of_command hd hs h

/-! ### Recorded runs -/

theorem Resembles.root_eq {t : Turn C κ α} (h : k.Resembles t) :
    t.after.root.handler = t.before.root.handler := by
  obtain ⟨j, w', hstep, -⟩ := h.step
  exact hstep.root_eq.1

theorem Resembles.outside_eq {t : Turn C κ α} (h : k.Resembles t) :
    t.worldAfter.outside = t.worldBefore.outside ++ t.heard := by
  obtain ⟨j, w', hstep, hout⟩ := h.step
  obtain ⟨calls, hcalls⟩ := hstep.outside_eq
  have hafter : t.worldAfter.outside = t.history ++ calls := hout ▸ hcalls
  rwa [Turn.heard_eq hafter]

/-- A step that the turn resembles, and what was heard in the turn is what is heard in the step. -/
theorem Resembles.exists_step {t : Turn C κ α} (h : k.Resembles t) :
    ∃ j w', k.Step j t.before t.worldBefore t.action t.response t.after w' ∧
      ∀ calls, w'.outside = t.worldBefore.outside ++ calls → t.heard = calls := by
  obtain ⟨j, w', hstep, hout⟩ := h.step
  exact ⟨j, w', hstep, fun calls hcalls => Turn.heard_eq (hout ▸ hcalls)⟩

/-- Turns that resemble steps, each from where the one before it ended. -/
inductive Links (k : Standard α C κ) :
    Session C κ α → HeardWorld α → List (Turn C κ α) → Session C κ α → HeardWorld α → Prop
  | nil (s : Session C κ α) (w : HeardWorld α) : Links k s w [] s w
  | cons (t : Turn C κ α) {turns : List (Turn C κ α)} {s : Session C κ α} {w : HeardWorld α}
      (hfirst : k.Resembles t) (hrest : Links k t.after t.worldAfter turns s w) :
      Links k t.before t.worldBefore (t :: turns) s w

/-- **The turns of a recorded run are linked**, from the session it starts with to the one it ends
with. -/
theorem links_recordedRun (hd : obs.Discreet s.root.handler) (hs : k.Sound s w.shadow)
    (actions : List (Action α)) :
    k.Links s w.shadow (k.recordedRun obs actions s w).turns
      (k.recordedRun obs actions s w).session (k.recordedRun obs actions s w).world := by
  induction actions generalizing s w with
  | nil => exact .nil s w.shadow
  | cons a rest ih =>
    rw [recordedRun]
    cases ha : k.act obs.recording a s w with
    | none => exact ih hd hs
    | some x =>
      obtain ⟨r, s', w'⟩ := x
      obtain ⟨hfirst, hs'⟩ := resembles_of_act hd hs ha
      have hroot : s'.root.handler = s.root.handler := hfirst.root_eq
      exact .cons ⟨a, s, w.shadow, r, s', w'.shadow⟩ hfirst (ih (hroot ▸ hd) hs')

namespace Links

variable {turns : List (Turn C κ α)} {v v' : HeardWorld α}

theorem turn (h : k.Links s v turns s' v') {t : Turn C κ α} (ht : t ∈ turns) : k.Resembles t := by
  induction h with
  | nil => simp at ht
  | cons first hfirst hrest ih =>
    rcases List.mem_cons.1 ht with rfl | ht
    · exact hfirst
    · exact ih ht

/-- **Everything that was heard was heard in some turn.** -/
theorem outside_eq (h : k.Links s v turns s' v') :
    v'.outside = v.outside ++ turns.flatMap (·.heard) := by
  induction h with
  | nil => simp
  | cons first hfirst hrest ih =>
    rw [ih, hfirst.outside_eq, List.flatMap_cons, List.append_assoc]

end Links

end Standard

end WatchedContainers
