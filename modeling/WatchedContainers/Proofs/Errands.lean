import WatchedContainers.Handler.Errands
import WatchedContainers.Proofs.Dispatch

/-!
# Snapshots of managed hooks

* `Errand.opens`: at open hooks **no errand fails** and the hooks stay open, however deep the
  listeners nest errands of their own.
* `World.attend_unattended`: the list of calls does not interfere with what is done.
* `Observers.Attends.snapshot`: **a dispatch calls the listeners that were registered when it
  began**, whatever they do to the lists while they are called.
-/

namespace WatchedContainers

variable {ρ σ α : Type}

/-! ### Holding a list -/

namespace World

variable {w : GuardedWorld ρ σ} {root : HandlerRef} {ref : HooksRef} {config : Config}
  {s : ManagedHooks ρ}

theorem hooksAt_setHooks {τ : Type} {w : World ρ τ} (hs : w.hooksAt ref = .managed s)
    (hooks : Hooks ρ) : (w.setHooks ref hooks).hooksAt ref = hooks := by
  obtain ⟨i⟩ := ref
  have hlt : i < w.hooks.size := by
    refine Nat.lt_of_not_le fun hle => ?_
    simp [hooksAt, Array.getD_eq_getD_getElem?, Array.getElem?_eq_none hle] at hs
  simp [hooksAt, setHooks, Array.getD_eq_getD_getElem?, hlt]

theorem onManagedHooks_of_role {τ β : Type} (obs : Observers ρ τ α) {w : World ρ τ}
    (hrole : (w.handler root).role = .root ref) (hs : w.hooksAt ref = .managed s)
    (operation : String) (f : HooksRef → ManagedHooks ρ → World ρ τ → β × World ρ τ) :
    w.onManagedHooks obs root operation f = (.ok (f ref s w).1, (f ref s w).2) := by
  have hroot : (w.handler root).isRoot := by
    unfold Handler.isRoot
    rw [hrole]
  have hreach : w.reachRoot obs root = (.ok root, w) := by
    unfold reachRoot root?
    rw [if_pos hroot]
  unfold onManagedHooks reachHooks
  simp only [hreach, hrole, hs]

/-- What is done to managed hooks through a handler is nothing, a trace, or done to the hooks. -/
theorem onManagedHooks_cases {τ β : Type} (obs : Observers ρ τ α) (w : World ρ τ) (h : HandlerRef)
    (operation : String) (f : HooksRef → ManagedHooks ρ → World ρ τ → β × World ρ τ) :
    (w.onManagedHooks obs h operation f).2 = w ∨
      (∃ t, (∀ e, t ≠ .dispatching e) ∧ (w.onManagedHooks obs h operation f).2 = w.emit obs t) ∨
      ∃ ref s, w.hooksAt ref = .managed s ∧
        (w.onManagedHooks obs h operation f).2 = (f ref s w).2 := by
  unfold onManagedHooks reachHooks reachRoot
  cases w.root? h with
  | none => exact .inr (.inl ⟨.rootGone _, nofun, rfl⟩)
  | some r =>
    simp only
    cases (w.handler r).role with
    | range | keyed => exact .inl rfl
    | root ref =>
      simp only
      cases hs : w.hooksAt ref with
      | acceptAll | policy => exact .inl rfl
      | managed s => exact .inr (.inr ⟨ref, s, hs, rfl⟩)

end World

/-- Taken and given back, the guard of a list that nobody holds is as before. -/
theorem Guards.give_take_reading (p : Phase) :
    (({} : Guards).take p .reading).give p .reading = {} := by
  cases p <;> rfl

theorem Guards.give_take_changing (p : Phase) :
    (({} : Guards).take p .changing).give p .changing = {} := by
  cases p <;> rfl

namespace World

variable {w : GuardedWorld ρ σ} {root : HandlerRef} {ref : HooksRef} {config : Config}
  {s : ManagedHooks ρ}

/-- A dispatch that found its list free has copied the hooks and changed nothing. -/
theorem holding_hooksAt (hw : w.guards = {}) (p : Phase) :
    w.holding p .reading (fun w => (w.hooksAt ref, w)) = (w.hooksAt ref, w) := by
  have hback : (w.withGuards (·.take p .reading)).withGuards (·.give p .reading) = w := by
    have hsame : (w.outside.2.take p .reading).give p .reading = w.outside.2 := by
      change (w.guards.take p .reading).give p .reading = w.guards
      rw [hw, Guards.give_take_reading]
    unfold withGuards
    simp only [hsame]
  unfold holding
  exact Prod.ext rfl hback

/-! ### Errands at the lists -/

/-- The lists at `ref` were replaced and nothing else that matters to the hooks. -/
structure Edits (ref : HooksRef) (s : ManagedHooks ρ) (w w' : GuardedWorld ρ σ) : Prop where
  handlers : w'.handlers = w.handlers
  hooks : w'.hooksAt ref = .managed s
  guards : w'.guards = {}

theorem Edits.opens {w' : GuardedWorld ρ σ} (h : Edits ref s w w') (hw : w.Open root ref config)
    (hconfig : s.config = config) : w'.Open root ref config where
  role := by
    have hsame : w'.handler root = w.handler root := by rw [handler, h.handlers, handler]
    rw [hsame, hw.role]
  managed := ⟨s, h.hooks, hconfig⟩
  guards := h.guards

theorem edits_holding (hw : w.guards = {}) (p : Phase) {hold : Hold}
    (hhold : (({} : Guards).take p hold).give p hold = {}) {v : GuardedWorld ρ σ}
    (hhandlers : v.handlers = w.handlers) (hhooks : v.hooksAt ref = .managed s)
    (hguards : v.guards = (w.withGuards (·.take p hold)).guards) :
    Edits ref s w (v.withGuards (·.give p hold)) where
  handlers := hhandlers
  hooks := hhooks
  guards := by
    change v.guards.give p hold = {}
    rw [hguards]
    change (w.guards.take p hold).give p hold = {}
    rw [hw, hhold]

variable {obs : Observers ρ (σ × Guards) α}

theorem edits_registerAt (htrace : ∀ t x, (obs.trace t x).2 = x.2) (hw : w.guards = {})
    (hs : w.hooksAt ref = .managed s) (p : Phase) (l : ρ) (mask : Mask) :
    Edits ref (s.withRegistered p (s.registered p ++ [⟨l, mask⟩])) w
      (((w.withGuards (·.take p .changing)).registerAt obs ref s p l mask).withGuards
        (·.give p .changing)) :=
  edits_holding hw p (Guards.give_take_changing p) rfl
    (hooksAt_setHooks (w := w.withGuards (·.take p .changing)) hs _) (htrace ..)

theorem edits_setHooks (hw : w.guards = {}) (hs : w.hooksAt ref = .managed s) (p : Phase)
    (rest : ManagedHooks ρ) :
    Edits ref rest w (((w.withGuards (·.take p .changing)).setHooks ref (.managed rest)).withGuards
      (·.give p .changing)) :=
  edits_holding hw p (Guards.give_take_changing p) rfl
    (hooksAt_setHooks (w := w.withGuards (·.take p .changing)) hs _) rfl

theorem edits_reading (hw : w.guards = {}) (hs : w.hooksAt ref = .managed s) (p : Phase) :
    Edits ref s w ((w.withGuards (·.take p .reading)).withGuards (·.give p .reading)) :=
  edits_holding hw p (Guards.give_take_reading p) (v := w.withGuards (·.take p .reading)) rfl hs rfl

section Serve

variable [DecidableEq ρ] (obs) (hrole : (w.handler root).role = .root ref)
  (hs : w.hooksAt ref = .managed s) (p : Phase) (l : ρ)

include hs

theorem serve_subscribe : w.serve obs root ref (.subscribe p l) =
    (.ok .done, ((w.withGuards (·.take p .changing)).registerAt obs ref s p l
      s.config.defaultMask).withGuards (·.give p .changing)) := by
  have hheld : (w.withGuards (·.take p .changing)).hooksAt ref = .managed s := hs
  simp only [serve, holding, subscribe, hheld]

include hrole

theorem serve_add (mask : Mask) : w.serve obs root ref (.add p l mask) =
    (.ok .done, ((w.withGuards (·.take p .changing)).registerAt obs ref s p l mask).withGuards
      (·.give p .changing)) := by
  have hadd := onManagedHooks_of_role obs (w := w.withGuards (·.take p .changing)) hrole hs
    ("add_" ++ p.word ++ "_listener") fun ref s w => ((), w.registerAt obs ref s p l mask)
  simp only [serve, holding, addListener, hadd]
  rfl

theorem serve_remove : w.serve obs root ref (.remove p l) =
    (.ok (.removed ((Registration.without l (s.registered p)).length != (s.registered p).length)),
      ((w.withGuards (·.take p .changing)).setHooks ref
        (.managed (s.withRegistered p (Registration.without l (s.registered p))))).withGuards
        (·.give p .changing)) := by
  have hremove := onManagedHooks_of_role obs (w := w.withGuards (·.take p .changing)) hrole
    hs ("remove_" ++ p.word ++ "_listener") fun ref s w =>
      let rest := Registration.without l (s.registered p)
      (rest.length != (s.registered p).length,
        w.setHooks ref (.managed (s.withRegistered p rest)))
  simp only [serve, holding, removeListener, hremove]
  rfl

theorem serve_list : w.serve obs root ref (.list p) =
    (.ok (.listed ((s.registered p).map (·.listener))),
      (w.withGuards (·.take p .reading)).withGuards (·.give p .reading)) := by
  have hlist := onManagedHooks_of_role obs (w := w.withGuards (·.take p .reading)) hrole hs
    (p.word ++ "_listeners") fun _ s w => ((s.registered p).map (·.listener), w)
  simp only [serve, holding, listeners, hlist]
  rfl

end Serve

section Dispatch

variable [DecidableEq ρ] (root) (ref) (obs) (hw : w.guards = {}) (e : Event α)

include hw

theorem serve_decide : w.serve obs root ref (.decide e) =
    (.ok (.decided ((w.hooksAt ref).decide obs e w).1), ((w.hooksAt ref).decide obs e w).2) := by
  simp only [serve, holding_hooksAt hw]

theorem serve_notify : w.serve obs root ref (.notify e) =
    (.ok .done, (w.hooksAt ref).notify obs e w) := by
  simp only [serve, holding_hooksAt hw]

end Dispatch

end World

/-- The listeners that are left are fewer if and only if the one removed was registered. -/
theorem Registration.length_without [DecidableEq ρ] (l : ρ) (rs : List (Registration ρ)) :
    ((Registration.without l rs).length != rs.length) = rs.any fun r => r.listener = l := by
  rw [Bool.eq_iff_iff, bne_iff_ne, ne_eq, Registration.without, List.length_filter_eq_length_iff]
  simp

/-! ### Nobody fails -/

structure Observers.Opens (obs : Observers ρ (σ × Guards) α) (root : HandlerRef) (ref : HooksRef)
    (config : Config) : Prop where
  trace : ∀ t x, (obs.trace t x).2 = x.2
  decide : ∀ party e w, World.Open w root ref config →
    World.Open (obs.decide party e w).2 root ref config
  notify : ∀ party e w, World.Open w root ref config →
    World.Open (obs.notify party e w) root ref config

section Nested

variable [DecidableEq ρ] {obs : Observers ρ (σ × Guards) α} {root : HandlerRef} {ref : HooksRef}
  {config : Config} {w w' : GuardedWorld ρ σ}

namespace World

theorem attend_of_serve {x : Errand ρ α} {r : Receipt ρ}
    (h : w.serve obs root ref x = (.ok r, w')) : w.attend obs root ref x = (.ok r, w') := by
  simp only [attend, h]

/-- **At open hooks no errand fails**, and they stay open. -/
theorem Open.attend (ho : obs.Opens root ref config) (hw : w.Open root ref config)
    (x : Errand ρ α) :
    ∃ r w', w.attend obs root ref x = (.ok r, w') ∧ w'.Open root ref config := by
  obtain ⟨s, hs, hconfig⟩ := hw.managed
  have hsame : ∀ (p : Phase) (rs : List (Registration ρ)),
      (s.withRegistered p rs).config = config := by
    intro p rs
    rw [← hconfig]
    cases p <;> rfl
  cases x with
  | add p l mask =>
    refine ⟨_, _, attend_of_serve (serve_add obs hw.role hs p l mask), ?_⟩
    exact (edits_registerAt ho.trace hw.guards hs p l mask).opens hw (hsame ..)
  | subscribe p l =>
    refine ⟨_, _, attend_of_serve (serve_subscribe obs hs p l), ?_⟩
    exact (edits_registerAt ho.trace hw.guards hs p l _).opens hw (hsame ..)
  | remove p l =>
    refine ⟨_, _, attend_of_serve (serve_remove obs hw.role hs p l), ?_⟩
    exact (edits_setHooks hw.guards hs p _).opens hw (hsame ..)
  | list p =>
    refine ⟨_, _, attend_of_serve (serve_list obs hw.role hs p), ?_⟩
    exact (edits_reading hw.guards hs p).opens hw hconfig
  | decide e =>
    refine ⟨_, _, attend_of_serve (serve_decide root ref obs hw.guards e), ?_⟩
    exact Hooks.decide_induction (R := fun w w' => Open w root ref config → Open w' root ref config)
      (fun _ => id) (fun h h' => h' ∘ h) ho.decide _ e w hw
  | notify e =>
    refine ⟨_, _, attend_of_serve (serve_notify root ref obs hw.guards e), ?_⟩
    exact Hooks.notify_induction (R := fun w w' => Open w root ref config → Open w' root ref config)
      (fun _ => id) (fun h h' => h' ∘ h) ho.notify _ e w hw

theorem Involvement.opens {inner : Observers ρ (σ × Guards) α → Prop}
    (hinner : ∀ obs, inner obs → obs.Opens root ref config)
    (h : Involvement root ref inner w w') (hw : w.Open root ref config) :
    w'.Open root ref config := by
  cases h with
  | errand obs hobs x _ =>
    obtain ⟨r, w'', heq, hopen⟩ := hw.attend (hinner obs hobs) x
    rw [heq]
    exact hopen
  | elsewhere _ _ hrole hhooks hguards =>
    obtain ⟨s, hs, hconfig⟩ := hw.managed
    exact ⟨hrole.trans hw.role, ⟨s, hhooks.trans hs, hconfig⟩, hguards.trans hw.guards⟩

end World

namespace Observers

theorem Involved.opens {inner : Observers ρ (σ × Guards) α → Prop}
    (hinner : ∀ obs, inner obs → obs.Opens root ref config)
    (ho : obs.Involved (World.Involvement root ref inner)) : obs.Opens root ref config := by
  have hdeeds : ∀ w w', Relation.ReflTransGen (World.Involvement root ref inner) w w' →
      w.Open root ref config → w'.Open root ref config := by
    intro w w' h hw
    induction h with
    | refl => exact hw
    | tail _ hdeed ih => exact hdeed.opens hinner ih
  exact ⟨ho.trace, fun party e w => hdeeds _ _ (ho.decide party e w),
    fun party e w => hdeeds _ _ (ho.notify party e w)⟩

/-- Parties leave open hooks open, however deep they nest their errands. -/
theorem Attends.opens {depth : Nat} (h : obs.Attends root ref depth) :
    obs.Opens root ref config := by
  induction depth generalizing obs with
  | zero => exact Involved.opens (fun _ hnone => hnone.elim) h
  | succ depth ih => exact Involved.opens (fun _ hinner => ih hinner) h

end Observers

end Nested

/-! ### The list of calls does not interfere -/

section Unattended

variable {obs : Observers ρ (σ × Guards) α} (w : AttendedWorld ρ σ α) {root : HandlerRef}
  {ref : HooksRef} {config : Config}

namespace World

theorem unattended_consult (e : Event α) (shortCircuit : Bool) (parties : List ρ) :
    consult obs shortCircuit e parties w.unattended =
      ((consult obs.attended shortCircuit e parties w).1,
        (consult obs.attended shortCircuit e parties w).2.unattended) := by
  induction parties generalizing shortCircuit w with
  | nil => rfl
  | cons l rest ih =>
    have hdecide : obs.decide l e w.unattended =
      ((obs.attended.decide l e w).1, (obs.attended.decide l e w).2.unattended) := rfl
    unfold consult
    rw [hdecide]
    cases obs.attended.decide l e w with
    | mk b w' =>
      cases b with
      | true => exact ih w' shortCircuit
      | false =>
        cases shortCircuit with
        | true => rfl
        | false =>
          simp only [Bool.false_eq_true, if_false, ih]

theorem unattended_inform (e : Event α) (parties : List ρ) :
    inform obs e parties w.unattended = (inform obs.attended e parties w).unattended := by
  induction parties generalizing w with
  | nil => rfl
  | cons l rest ih => exact ih (obs.attended.notify l e w)

/-- **The list of calls does not interfere** with an errand at open hooks. -/
theorem attend_unattended [DecidableEq ρ] (hw : w.Open root ref config) (x : Errand ρ α) :
    w.unattended.attend obs root ref x =
      ((w.attend obs.attended root ref x).1, (w.attend obs.attended root ref x).2.unattended) := by
  obtain ⟨s, hs, -⟩ := hw.managed
  have hrole : (w.unattended.handler root).role = .root ref := hw.role
  have hs' : w.unattended.hooksAt ref = .managed s := hs
  have hguards : w.unattended.guards = {} := hw.guards
  cases x with
  | add p l mask =>
    rw [attend_of_serve (serve_add obs hrole hs' p l mask),
      attend_of_serve (serve_add obs.attended hw.role hs p l mask)]
    rfl
  | subscribe p l =>
    rw [attend_of_serve (serve_subscribe obs hs' p l),
      attend_of_serve (serve_subscribe obs.attended hs p l)]
    rfl
  | remove p l =>
    rw [attend_of_serve (serve_remove obs hrole hs' p l),
      attend_of_serve (serve_remove obs.attended hw.role hs p l)]
    rfl
  | list p =>
    rw [attend_of_serve (serve_list obs hrole hs' p),
      attend_of_serve (serve_list obs.attended hw.role hs p)]
    rfl
  | decide e =>
    rw [attend_of_serve (serve_decide root ref obs hguards e),
      attend_of_serve (serve_decide root ref obs.attended hw.guards e), hs, hs']
    simp only [Hooks.decide, unattended_consult]
  | notify e =>
    rw [attend_of_serve (serve_notify root ref obs hguards e),
      attend_of_serve (serve_notify root ref obs.attended hw.guards e), hs, hs']
    simp only [Hooks.notify, unattended_inform]

end World

end Unattended

/-! ### The calls of a dispatch -/

namespace Summons

variable {shortCircuit accepted : Bool} {e : Event α} {parties : List ρ}
  {calls : List (Summons ρ σ α)} {c : Summons ρ σ α}

theorem Decided.nil : Decided shortCircuit e [] ([] : List (Summons ρ σ α)) true :=
  ⟨by simp, by simp, by simp, by simp, by simp⟩

theorem Decided.accept (h : Decided shortCircuit e parties calls accepted) (he : c.event = e)
    (hyes : c.answer = some true) :
    Decided shortCircuit e (c.listener :: parties) (c :: calls) accepted where
  asked := List.forall_mem_cons.2 ⟨⟨he, by rw [hyes]; rfl⟩, h.asked⟩
  order := by
    rw [List.map_cons]
    exact (List.cons_prefix_cons).2 ⟨rfl, h.order⟩
  complete hall := by
    rw [List.map_cons, h.complete (hall.imp_right fun h c hc => h c (List.mem_cons_of_mem _ hc))]
  first hshort := by
    cases calls with
    | nil => simp
    | cons c' rest =>
      rw [List.dropLast_cons_of_ne_nil (List.cons_ne_nil _ _)]
      exact List.forall_mem_cons.2 ⟨hyes, h.first hshort⟩
  answer := by
    rw [h.answer, List.forall_mem_cons, hyes]
    simp

theorem Decided.stop (he : c.event = e) (hno : c.answer = some false) :
    Decided true e (c.listener :: parties) [c] false where
  asked := by simp [he, hno]
  order := by simp
  complete hall := by simp [hno] at hall
  first _ := by simp
  answer := by simp [hno]

theorem Decided.refuse (h : Decided false e parties calls accepted) (he : c.event = e)
    (hno : c.answer = some false) :
    Decided false e (c.listener :: parties) (c :: calls) false where
  asked := List.forall_mem_cons.2 ⟨⟨he, by rw [hno]; rfl⟩, h.asked⟩
  order := by
    rw [List.map_cons]
    exact (List.cons_prefix_cons).2 ⟨rfl, h.order⟩
  complete _ := by rw [List.map_cons, h.complete (.inl rfl)]
  first hshort := by cases hshort
  answer := by simp [hno]

end Summons

section Consult

variable {obs : Observers ρ σ α} {e : Event α} {l : ρ} {w w' : World ρ σ}

theorem consult_of_yes (h : obs.decide l e w = (true, w')) (shortCircuit : Bool) (rest : List ρ) :
    consult obs shortCircuit e (l :: rest) w = consult obs shortCircuit e rest w' := by
  simp only [consult, h]

theorem consult_of_no (h : obs.decide l e w = (false, w')) (rest : List ρ) :
    consult obs true e (l :: rest) w = (false, w') := by
  simp only [consult, h, if_true]

theorem consult_of_no_exhaustive (h : obs.decide l e w = (false, w')) (rest : List ρ) :
    consult obs false e (l :: rest) w = (false, (consult obs false e rest w').2) := by
  simp only [consult, h, Bool.false_eq_true, if_false]

end Consult

namespace World

variable (obs : Observers ρ (σ × Guards) α) (w : AttendedWorld ρ σ α)

/-- Every party in turn is asked, until one of them ends the consultation. -/
theorem consult_attended (e : Event α) (shortCircuit : Bool) (parties : List ρ) :
    let result := consult obs.attended shortCircuit e parties w
    ∃ calls, result.2.summonses = w.summonses ++ calls ∧ (∀ c ∈ calls, c.Genuine obs) ∧
      Summons.Lead w.unattended calls result.2.unattended ∧
      Summons.Decided shortCircuit e parties calls result.1 := by
  induction parties generalizing shortCircuit w with
  | nil => exact ⟨[], (List.append_nil _).symm, by simp, rfl, .nil⟩
  | cons l rest ih =>
    intro result
    cases hb : obs.decide l e w.unattended with
    | mk b w' =>
      let c : Summons ρ σ α := ⟨l, e, w.unattended, some b, w'⟩
      have hgenuine : c.Genuine obs := hb
      have hdecide : obs.attended.decide l e w = (b, w'.attended (w.summonses ++ [c])) := by
        simp only [Observers.attended, hb, c]
      obtain ⟨calls, hcalls, hall, hlead, hdecided⟩ :=
        ih (w'.attended (w.summonses ++ [c])) shortCircuit
      have hsummonses : (w'.attended (w.summonses ++ [c])).summonses ++ calls =
          w.summonses ++ c :: calls := List.append_assoc ..
      cases b with
      | true =>
        have hresult : result = _ := consult_of_yes hdecide shortCircuit rest
        rw [hresult]
        exact ⟨c :: calls, hcalls.trans hsummonses, List.forall_mem_cons.2 ⟨hgenuine, hall⟩,
          ⟨rfl, hlead⟩, hdecided.accept (c := c) rfl rfl⟩
      | false =>
        cases shortCircuit with
        | true =>
          have hresult : result = _ := consult_of_no hdecide rest
          rw [hresult]
          exact ⟨[c], rfl, by simpa using hgenuine, ⟨rfl, rfl⟩,
            Summons.Decided.stop (c := c) rfl rfl⟩
        | false =>
          have hresult : result = _ := consult_of_no_exhaustive hdecide rest
          rw [hresult]
          exact ⟨c :: calls, hcalls.trans hsummonses, List.forall_mem_cons.2 ⟨hgenuine, hall⟩,
            ⟨rfl, hlead⟩, hdecided.refuse (c := c) rfl rfl⟩

theorem inform_attended (e : Event α) (parties : List ρ) :
    let w' := inform obs.attended e parties w
    ∃ calls, w'.summonses = w.summonses ++ calls ∧ (∀ c ∈ calls, c.Genuine obs) ∧
      Summons.Lead w.unattended calls w'.unattended ∧ Summons.Notified e parties calls := by
  induction parties generalizing w with
  | nil => exact ⟨[], (List.append_nil _).symm, by simp, rfl, ⟨by simp, rfl⟩⟩
  | cons l rest ih =>
    let c : Summons ρ σ α := ⟨l, e, w.unattended, none, obs.notify l e w.unattended⟩
    have hgenuine : c.Genuine obs := rfl
    obtain ⟨calls, hcalls, hall, hlead, htold⟩ := ih (obs.attended.notify l e w)
    refine ⟨c :: calls, hcalls.trans (List.append_assoc ..),
      List.forall_mem_cons.2 ⟨hgenuine, hall⟩, ⟨rfl, hlead⟩,
      List.forall_mem_cons.2 ⟨⟨rfl, rfl⟩, htold.told⟩, ?_⟩
    rw [List.map_cons, htold.order]

end World

section Snapshot

variable {obs : Observers ρ (σ × Guards) α} {root : HandlerRef} {ref : HooksRef} {config : Config}
  {w w' : GuardedWorld ρ σ}

/-- Every call in a chain begins and ends at open hooks. -/
theorem Summons.Lead.opens (ho : obs.Opens root ref config) {calls : List (Summons ρ σ α)}
    (hlead : Summons.Lead w calls w') (hgenuine : ∀ c ∈ calls, c.Genuine obs)
    (hw : w.Open root ref config) :
    ∀ c ∈ calls, c.before.Open root ref config ∧ c.after.Open root ref config := by
  induction calls generalizing w with
  | nil => simp
  | cons c rest ih =>
    obtain ⟨rfl, hrest⟩ := hlead
    obtain ⟨hfirst, hgenuine⟩ := List.forall_mem_cons.1 hgenuine
    have hafter : c.after.Open root ref config := by
      unfold Summons.Genuine at hfirst
      cases hanswer : c.answer with
      | none =>
        rw [hanswer] at hfirst
        rw [← hfirst]
        exact ho.notify c.listener c.event _ hw
      | some b =>
        rw [hanswer] at hfirst
        have hopen := ho.decide c.listener c.event _ hw
        rw [hfirst] at hopen
        exact hopen
    exact List.forall_mem_cons.2 ⟨⟨hw, hafter⟩, ih hrest hgenuine hafter⟩

theorem World.Open.attended (hw : w.Open root ref config) (calls : List (Summons ρ σ α)) :
    (w.attended calls).Open root ref config :=
  ⟨hw.role, hw.managed, hw.guards⟩

theorem Observers.Opens.attended (ho : obs.Opens root ref config) :
    (obs.attended : Observers ρ ((σ × List (Summons ρ σ α)) × Guards) α).Opens root ref config where
  trace t x := ho.trace t (x.1.1, x.2)
  decide party e w hw :=
    (ho.decide party e w.unattended ⟨hw.role, hw.managed, hw.guards⟩).attended _
  notify party e w hw :=
    (ho.notify party e w.unattended ⟨hw.role, hw.managed, hw.guards⟩).attended _

/-- Those who were called were called indeed, and each of them found the hooks open and left them
open. -/
def Attendance.Meets (obs : Observers ρ (σ × Guards) α) (root : HandlerRef) (ref : HooksRef)
    (config : Config) (t : Attendance ρ σ α) : Prop :=
  ∀ c ∈ t.calls, c.Genuine obs ∧ c.before.Open root ref config ∧ c.after.Open root ref config

variable [DecidableEq ρ]

def World.attendance (obs : Observers ρ (σ × Guards) α) (root : HandlerRef) (ref : HooksRef)
    (x : Errand ρ α) (w : GuardedWorld ρ σ) : Attendance ρ σ α :=
  let result := (w.attended []).attend obs.attended root ref x
  ⟨x, w, result.1, result.2.summonses, result.2.unattended⟩

namespace Attendance

variable {x : Errand ρ α} {r : Receipt ρ} {v : AttendedWorld ρ σ α}

theorem of_edits (hserve : (w.attended []).serve obs.attended root ref x = (.ok r, v))
    (hv : v.summonses = []) {s : ManagedHooks ρ} (hedits : World.Edits ref s (w.attended []) v) :
    let t := w.attendance obs root ref x
    (t.receipt = .ok r ∧ t.calls = [] ∧ t.after.hooksAt ref = .managed s) ∧
      t.Meets obs root ref config := by
  intro t
  have ht : t = ⟨x, w, .ok r, v.summonses, v.unattended⟩ := by
    simp only [t, World.attendance, World.attend_of_serve hserve]
  rw [ht, Meets, hv]
  exact ⟨⟨rfl, rfl, hedits.hooks⟩, by simp⟩

/-- A dispatch that is served calls its listeners in a chain. -/
theorem of_calls (ho : obs.Opens root ref config) (hw : w.Open root ref config)
    (hserve : (w.attended []).serve obs.attended root ref x = (.ok r, v))
    {calls : List (Summons ρ σ α)}
    (hcalls : v.summonses = (w.attended ([] : List (Summons ρ σ α))).summonses ++ calls)
    (hgenuine : ∀ c ∈ calls, c.Genuine obs) (hlead : Summons.Lead w calls v.unattended) :
    let t := w.attendance obs root ref x
    t.receipt = .ok r ∧ t.calls = calls ∧ Summons.Lead w t.calls t.after ∧
      t.Meets obs root ref config := by
  intro t
  have ht : t = ⟨x, w, .ok r, calls, v.unattended⟩ := by
    simp only [t, World.attendance, World.attend_of_serve hserve, hcalls]
    rfl
  rw [ht]
  exact ⟨rfl, rfl, hlead, fun c hc => ⟨hgenuine c hc, hlead.opens ho hgenuine hw c hc⟩⟩

/-- What one errand comes to at open hooks, and which listeners it calls. -/
theorem follows (ho : obs.Opens root ref config) (hw : w.Open root ref config)
    {s : ManagedHooks ρ} (hs : w.hooksAt ref = .managed s) (x : Errand ρ α) :
    (w.attendance obs root ref x).Follows ref s ∧
      (w.attendance obs root ref x).Meets obs root ref config := by
  have hopen := hw.attended ([] : List (Summons ρ σ α))
  have hguards := hopen.guards
  have hs' : (w.attended ([] : List (Summons ρ σ α))).hooksAt ref = .managed s := hs
  cases x with
  | add p l mask =>
    exact of_edits (World.serve_add obs.attended hopen.role hs' p l mask) rfl
      (World.edits_registerAt ho.attended.trace hguards hs' p l mask)
  | subscribe p l =>
    exact of_edits (World.serve_subscribe obs.attended hs' p l) rfl
      (World.edits_registerAt ho.attended.trace hguards hs' p l _)
  | remove p l =>
    have hserve := World.serve_remove obs.attended hopen.role hs' p l
    rw [Registration.length_without] at hserve
    exact of_edits hserve rfl (World.edits_setHooks hguards hs' p _)
  | list p =>
    exact of_edits (World.serve_list obs.attended hopen.role hs' p) rfl
      (World.edits_reading hguards hs' p)
  | decide e =>
    have hserve := World.serve_decide root ref obs.attended hguards e
    rw [hs'] at hserve
    obtain ⟨calls, hcalls, hgenuine, hlead, hdecided⟩ :=
      (w.attended []).consult_attended obs e s.config.shortCircuit
        (Registration.hearing e.kind s.pre)
    obtain ⟨hreceipt, hsame, hlead, hmeets⟩ := of_calls ho hw hserve hcalls hgenuine hlead
    exact ⟨⟨_, hreceipt, hlead, hsame ▸ hdecided⟩, hmeets⟩
  | notify e =>
    have hserve := World.serve_notify root ref obs.attended hguards e
    rw [hs'] at hserve
    obtain ⟨calls, hcalls, hgenuine, hlead, htold⟩ :=
      (w.attended []).inform_attended obs e (Registration.hearing e.kind s.post)
    obtain ⟨hreceipt, hsame, hlead, hmeets⟩ := of_calls ho hw hserve hcalls hgenuine hlead
    exact ⟨⟨hreceipt, hlead, hsame ▸ htold⟩, hmeets⟩

end Attendance

/-- **A dispatch calls those who were registered when it began.**  Listeners come and go and events
are dispatched in any order, and the listeners may do errands of their own while they are called,
nested to any depth.  Every errand starts from the lists as the one before it left them.  A
registration goes to the end of its list and a removal drops every registration of a listener.  The
question goes to the registered pre-listeners whose masks cover the kind, in order, up to the first
that says no if that ends it, and the answer is yes unless one of those asked said no; the message
goes to all the post-listeners whose masks cover it.  No errand ever fails, wherever in a dispatch it
is made. -/
theorem Observers.Attends.snapshot {depth : Nat} (hobs : obs.Attends root ref depth)
    (hw : w.Open root ref config) (errands : List (Errand ρ α)) :
    let turns := obs.errands root ref errands w
    turns.map (·.errand) = errands ∧ Attendance.Lead w turns ∧ ∀ t ∈ turns,
      t.before.attend obs root ref t.errand = (t.receipt, t.after) ∧
      t.before.Open root ref config ∧ t.after.Open root ref config ∧
      (∃ s, t.before.hooksAt ref = .managed s ∧ s.config = config ∧ t.Follows ref s) ∧
      ∀ c ∈ t.calls, c.Genuine obs ∧ c.before.Open root ref config ∧ c.after.Open root ref config ∧
        ∀ x : Errand ρ α, (∃ r, (c.before.attend obs root ref x).1 = .ok r) ∧
          ∃ r, (c.after.attend obs root ref x).1 = .ok r := by
  have ho : obs.Opens root ref config := hobs.opens
  have hok : ∀ {w : GuardedWorld ρ σ}, w.Open root ref config → ∀ x : Errand ρ α,
      ∃ r, (w.attend obs root ref x).1 = .ok r := by
    intro w hw x
    obtain ⟨r, w', heq, -⟩ := hw.attend ho x
    exact ⟨r, congrArg Prod.fst heq⟩
  induction errands generalizing w with
  | nil => exact ⟨rfl, trivial, by simp [Observers.errands]⟩
  | cons x rest ih =>
    obtain ⟨s, hs, hconfig⟩ := hw.managed
    obtain ⟨hfollows, hcalls⟩ := Attendance.follows ho hw hs x
    have hplain : w.attend obs root ref x = _ :=
      World.attend_unattended (w.attended []) (hw.attended []) x
    obtain ⟨r, w', heq, hopen⟩ := hw.attend ho x
    obtain rfl : w' = _ := congrArg Prod.snd (heq.symm.trans hplain)
    obtain ⟨hmap, hlead, hturns⟩ := ih hopen
    refine ⟨?_, ⟨rfl, hlead⟩, List.forall_mem_cons.2 ⟨⟨hplain, hw, hopen, ⟨s, hs, hconfig, hfollows⟩,
      fun c hc => ?_⟩, hturns⟩⟩
    · exact congrArg (x :: ·) hmap
    · obtain ⟨hgenuine, hbefore, hafter⟩ := hcalls c hc
      exact ⟨hgenuine, hbefore, hafter, fun x => ⟨hok hbefore x, hok hafter x⟩⟩

end Snapshot

/-- Listener 0 leaves and sends for listener 3 while it is asked, and listener 1 refuses to clear
anything.  The question that this happens in goes on to listener 1 all the same; listener 3 is asked
from the next one on, if listener 1 lets it come to that. -/
theorem Observers.Attends.snapshot_replaced :
    let root : HandlerRef := ⟨0⟩
    let ref : HooksRef := ⟨0⟩
    let calm : Observers Nat (Unit × Guards) Int :=
      ⟨fun l e w => (l != 1 || e.kind != .clear, w), fun _ _ w => w, fun _ x => x, fun _ x => x⟩
    let obs : Observers Nat (Unit × Guards) Int :=
      { calm with
        decide := fun l e w =>
          if l = 0 then
            (true, ((w.attend calm root ref (.remove .pre 0)).2.attend calm root ref
              (.add .pre 3 .changing)).2)
          else calm.decide l e w }
    let w : GuardedWorld Nat Unit :=
      { handlers := #[{ role := .root ref }], hooks := #[.managed {}], outside := ((), {}) }
    let clearing : Event Int := .before ⟨1⟩ root .clear none 2
    let adding : Event Int := .before ⟨1⟩ root (.add 7) none 2
    let turns := obs.errands root ref
      [.subscribe .pre 0, .subscribe .pre 1, .decide clearing, .decide clearing, .decide adding] w
    (turns.map fun t => t.calls.map (·.listener)) = [[], [], [0, 1], [1], [1, 3]] ∧
      (turns.map fun t => t.receipt.toOption) =
        [some .done, some .done, some (.decided false), some (.decided false),
          some (.decided true)] ∧
      ∀ t ∈ turns, t.after.Open root ref {} := by
  intro root ref calm obs w clearing adding turns
  have hcalm : calm.Attends root ref 0 := ⟨fun _ _ => rfl, fun _ _ _ => .refl, fun _ _ _ => .refl⟩
  have hobs : obs.Attends root ref 1 := by
    refine ⟨fun _ _ => rfl, fun l e w => ?_, fun _ _ _ => .refl⟩
    by_cases hl : l = 0
    · have hdecide : (obs.decide l e w).2 = ((w.attend calm root ref (.remove .pre 0)).2.attend calm
          root ref (.add .pre 3 .changing)).2 := by
        simp only [obs, hl, if_true]
      rw [hdecide]
      exact .tail (.single (.errand calm hcalm _ _)) (.errand calm hcalm _ _)
    · have hdecide : (obs.decide l e w).2 = w := by
        simp only [obs, hl, if_false]
        rfl
      rw [hdecide]
  have hw : w.Open root ref {} := ⟨rfl, ⟨_, rfl, rfl⟩, rfl⟩
  exact ⟨by decide +kernel, by decide +kernel, fun t ht => (hobs.snapshot hw _).2.2 t ht |>.2.2.1⟩

end WatchedContainers
