import WatchedContainers.Proofs.Hearing
import WatchedContainers.Watched.Run

/-!
# Guests go unnoticed

* `Panel.Attentive.hosts`: listeners that decide from what they have received themselves are hosts
  to everybody else.
* `Panel.Hosts.revises`: without the guest the others are called in the same way.
* `Panel.Hosts.transparent`: **a guest changes nothing for the others**, and hears what its mask
  selects.
-/

namespace WatchedContainers

variable {ρ σ ν C κ α : Type} [DecidableEq ρ]

/-! ### Minutes without the guest -/

namespace Minute

variable {guest l : ρ} (log : List (Minute ρ α))

theorem without_append_of_ne {m : Minute ρ α} (hm : m.listener? ≠ some guest) :
    without guest (log ++ [m]) = without guest log ++ [m] := by
  simp [without, hm]

theorem without_append_of_eq {m : Minute ρ α} (hm : m.listener? = some guest) :
    without guest (log ++ [m]) = without guest log := by
  simp [without, hm]

/-- What others have received does not depend on the guest. -/
theorem received_without (hl : l ≠ guest) : received l (without guest log) = received l log := by
  induction log with
  | nil => rfl
  | cons m rest ih =>
    unfold without received at *
    by_cases hm : m.listener? = some guest
    · rw [List.filter_cons_of_neg (by simpa using hm), ih]
      cases m with
      | raised e => cases hm
      | asked l' e | answered l' e b | told l' e =>
        have hguest : l' = guest := Option.some.inj hm
        simp [hguest, Ne.symm hl]
    · rw [List.filter_cons_of_pos (by simpa using hm), List.filterMap_cons, List.filterMap_cons, ih]

end Minute

/-- A conduct in which nothing is requested that involves `hidden` exceeds itself. -/
theorem Conduct.Only.exceeds {β : Type} {hidden : Option ρ} {c : Conduct ρ α β}
    (hc : c.Only fun x => x.involves hidden = false) : c.Exceeds hidden c := by
  induction hc with
  | done b => exact .done b
  | call x next hx hnext ih => exact .call x next next hx ih

/-- Whoever decides only from the events that it has received, and takes no interest in the guest,
is a host to it. -/
theorem Panel.Attentive.hosts {panel : Panel ρ α} (hp : panel.Attentive) {guest : ρ}
    (haccepts : ∀ log e, panel.asked log guest e = .done true)
    (hidle : ∀ log e, panel.told log guest e = .done ())
    (hasked : ∀ log l e, (panel.asked log l e).Only fun x => x.involves (some guest) = false)
    (htold : ∀ log l e, (panel.told log l e).Only fun x => x.involves (some guest) = false) :
    panel.Hosts panel guest where
  accepts := haccepts
  idle := hidle
  asked log l e hl := by
    rw [hp.asked _ log l e (Minute.received_without log hl)]
    exact (hasked log l e).exceeds
  told log l e hl := by
    rw [hp.told _ log l e (Minute.received_without log hl)]
    exact (htold log l e).exceeds

namespace Registration

theorem hearing_visible (guest : ρ) (k : Kind) (rs : List (Registration ρ)) :
    hearing k (visible (some guest) rs) = (hearing k rs).filter (· ≠ guest) := by
  simp only [hearing, visible, List.filter_map, List.filter_filter, Function.comp_def]
  refine congrArg (List.map _) (List.filter_congr fun r _ => ?_)
  simp [Bool.and_comm]

end Registration

/-- Without the guest, hooks that only call the guest accept everything. -/
theorem Hooks.policy_revised (guest party : ρ) :
    (Hooks.policy party).revised (.erasing (α := α) guest) =
      if party = guest then .acceptAll else .policy party := by
  simp [Hooks.revised, Revision.erasing]

namespace Panel.Hosts

variable [ObjectIdentity α] {panel bare : Panel ρ α} {guest : ρ} (hp : panel.Hosts bare guest)
  (depth : Nat)

include hp

/-! ### Calls of the guest -/

theorem decide_guest (e : Event α) (w : MinutedWorld ρ α) :
    (((panel.observers (depth + 1)).decide guest e w).1,
      ((panel.observers (depth + 1)).decide guest e w).2.revised (.erasing guest)) =
    (true, w.revised (.erasing guest)) := by
  have hasked : ((w.minute (.asked guest e)).minute (.answered guest e true)).revised
      (.erasing guest) = w.revised (.erasing guest) := by
    refine congrArg (World.mk _ _ _) ?_
    change Minute.without guest (w.outside ++ [.asked guest e] ++ [.answered guest e true]) = _
    rw [Minute.without_append_of_eq _ rfl, Minute.without_append_of_eq _ rfl]
    rfl
  simp only [observers, hp.accepts, World.follow, hasked]

theorem notify_guest (e : Event α) (w : MinutedWorld ρ α) :
    ((panel.observers (depth + 1)).notify guest e w).revised (.erasing guest) =
      w.revised (.erasing guest) := by
  have htold : (w.minute (.told guest e)).revised (.erasing guest) = w.revised (.erasing guest) :=
    congrArg (World.mk _ _ _) (Minute.without_append_of_eq w.outside rfl)
  simp only [observers, hp.idle, World.follow, htold]

/-! ### Calls of the others -/

section Others

variable {depth}
  (hinner : (panel.observers depth).Revises (.erasing guest) (bare.observers depth)) {l : ρ}
  (e : Event α)

omit hp [ObjectIdentity α] in
theorem minute_revised {m : Minute ρ α} (hm : m.listener? ≠ some guest) (w : MinutedWorld ρ α) :
    (w.revised (.erasing guest)).minute m = (w.minute m).revised (.erasing guest) :=
  congrArg (World.mk _ _ _) (Minute.without_append_of_ne w.outside hm).symm

include hinner

theorem decide_of_ne (hl : l ≠ guest) (w : MinutedWorld ρ α) :
    (bare.observers (depth + 1)).decide l e (w.revised (.erasing guest)) =
      (((panel.observers (depth + 1)).decide l e w).1,
        ((panel.observers (depth + 1)).decide l e w).2.revised (.erasing guest)) := by
  have hasks : (Minute.asked l e).listener? ≠ some guest := fun h => hl (Option.some.inj h)
  have hanswers : ∀ b, (Minute.answered l e b).listener? ≠ some guest :=
    fun _ h => hl (Option.some.inj h)
  have hfollow := World.follow_revised (w.minute (.asked l e)) hinner (hp.asked w.outside l e hl)
  have hmemory : (w.revised (.erasing guest)).outside = Minute.without guest w.outside := rfl
  simp only [observers, hmemory, minute_revised hasks, hfollow, minute_revised (hanswers _)]

theorem notify_of_ne (hl : l ≠ guest) (w : MinutedWorld ρ α) :
    (bare.observers (depth + 1)).notify l e (w.revised (.erasing guest)) =
      ((panel.observers (depth + 1)).notify l e w).revised (.erasing guest) := by
  have htells : (Minute.told l e).listener? ≠ some guest := fun h => hl (Option.some.inj h)
  have hfollow := World.follow_revised (w.minute (.told l e)) hinner (hp.told w.outside l e hl)
  simp only [observers, minute_revised htells]
  exact congrArg Prod.snd hfollow

theorem consult_without (shortCircuit : Bool) (ls : List ρ) (w : MinutedWorld ρ α) :
    consult (bare.observers (depth + 1)) shortCircuit e (ls.filter (· ≠ guest))
        (w.revised (.erasing guest)) =
      ((consult (panel.observers (depth + 1)) shortCircuit e ls w).1,
        (consult (panel.observers (depth + 1)) shortCircuit e ls w).2.revised
          (.erasing guest)) := by
  induction ls generalizing w with
  | nil => rfl
  | cons l rest ih =>
    by_cases hl : l = guest
    · subst hl
      have hguest := hp.decide_guest depth e w
      rw [List.filter_cons_of_neg (by simp), consult]
      generalize (panel.observers (depth + 1)).decide l e w = x at hguest
      obtain ⟨b, w'⟩ := x
      obtain ⟨rfl, hw'⟩ := Prod.mk.inj hguest
      rw [← hw', ih]
    · have hother := hp.decide_of_ne hinner e hl w
      rw [List.filter_cons_of_pos (by simpa using hl), consult, hother, consult]
      generalize (panel.observers (depth + 1)).decide l e w = x
      obtain ⟨b, w'⟩ := x
      cases b with
      | true => exact ih w'
      | false =>
        cases shortCircuit with
        | true => rfl
        | false => simp only [ih, Bool.false_eq_true, if_false]

theorem inform_without (ls : List ρ) (w : MinutedWorld ρ α) :
    inform (bare.observers (depth + 1)) e (ls.filter (· ≠ guest)) (w.revised (.erasing guest)) =
      (inform (panel.observers (depth + 1)) e ls w).revised (.erasing guest) := by
  induction ls generalizing w with
  | nil => rfl
  | cons l rest ih =>
    by_cases hl : l = guest
    · subst hl
      rw [List.filter_cons_of_neg (by simp), inform, ← ih, hp.notify_guest]
    · rw [List.filter_cons_of_pos (by simpa using hl), inform, inform,
        hp.notify_of_ne hinner e hl, ih]

/-! ### Calls of hooks -/

theorem decide_without (hooks : Hooks ρ) (w : MinutedWorld ρ α) :
    (hooks.revised (.erasing (α := α) guest)).decide (bare.observers (depth + 1)) e
        (w.revised (.erasing guest)) =
      ((hooks.decide (panel.observers (depth + 1)) e w).1,
        (hooks.decide (panel.observers (depth + 1)) e w).2.revised (.erasing guest)) := by
  cases hooks with
  | acceptAll => rfl
  | policy party =>
    by_cases hparty : party = guest
    · subst hparty
      rw [Hooks.policy_revised, if_pos rfl]
      exact (hp.decide_guest depth e w).symm
    · rw [Hooks.policy_revised, if_neg hparty]
      exact hp.decide_of_ne hinner e hparty w
  | managed s =>
    have hpre : (s.revised (.erasing (α := α) guest)).pre =
        Registration.visible (some guest) s.pre := rfl
    simp only [Hooks.revised, Hooks.decide, hpre, Registration.hearing_visible]
    exact hp.consult_without hinner e s.config.shortCircuit _ w

theorem notify_without (hooks : Hooks ρ) (w : MinutedWorld ρ α) :
    (hooks.revised (.erasing (α := α) guest)).notify (bare.observers (depth + 1)) e
        (w.revised (.erasing guest)) =
      (hooks.notify (panel.observers (depth + 1)) e w).revised (.erasing guest) := by
  cases hooks with
  | acceptAll => rfl
  | policy party =>
    by_cases hparty : party = guest
    · subst hparty
      rw [Hooks.policy_revised, if_pos rfl]
      exact (hp.notify_guest depth e w).symm
    · rw [Hooks.policy_revised, if_neg hparty]
      exact hp.notify_of_ne hinner e hparty w
  | managed s =>
    have hpost : (s.revised (.erasing (α := α) guest)).post =
        Registration.visible (some guest) s.post := rfl
    simp only [Hooks.revised, Hooks.notify, hpost, Registration.hearing_visible]
    exact hp.inform_without hinner e _ w

end Others

/-- **Without the guest the others are called in the same way**, however deep the calls are
nested. -/
theorem revises (depth : Nat) :
    (panel.observers depth).Revises (.erasing guest) (bare.observers depth) := by
  have hraised : ∀ (log : List (Minute ρ α)) e,
      Minute.without guest (log ++ [.raised e]) = Minute.without guest log ++ [.raised e] :=
    fun log e => Minute.without_append_of_ne log nofun
  induction depth with
  | zero => exact Panel.revises_zero hraised
  | succ depth ih =>
    exact Panel.revises hraised (fun hooks e w => hp.decide_without ih e hooks _)
      (fun hooks e w => hp.notify_without ih e hooks w)

end Panel.Hosts

/-! ### Listener values without a mask -/

section Unmasked

variable (obs : Observers ρ σ α) (pair : ListenerPair ρ) (name : String) (config : Config)

omit [DecidableEq ρ] in
theorem Registry.ask_unmasked {newer : List (Factory ρ σ ν)} (hnewer : ∀ f ∈ newer, f.Declines)
    (older : List (Factory ρ σ ν)) (id : ContainerId) (w : World ρ σ) :
    Registry.ask id ⟨.listeners { pair with mask := none }, name⟩ config
        (newer ++ .ofListeners obs :: older) w =
      Registry.ask id ⟨.listeners { pair with mask := some config.defaultMask }, name⟩ config
        (newer ++ .ofListeners obs :: older) w := by
  induction newer generalizing w with
  | nil => rfl
  | cons f rest ih =>
    have hf := hnewer f (.head _)
    have hsame := hf.mask id pair (some config.defaultMask) name config w
    have hnone := hf.create id { pair with mask := none } name config w
    have hnone' := hf.create id { pair with mask := some config.defaultMask } name config w
    rw [List.cons_append, ask, ask]
    generalize f.create id ⟨.listeners { pair with mask := none }, name⟩ config w = x at *
    generalize f.create id ⟨.listeners { pair with mask := some config.defaultMask }, name⟩ config w
      = y at *
    obtain ⟨a, w'⟩ := x
    obtain ⟨b, w''⟩ := y
    obtain rfl : a = none := hnone
    obtain rfl : b = none := hnone'
    obtain rfl : w'' = w' := hsame
    exact ih (fun g hg => hnewer g (.tail _ hg)) w''

omit [DecidableEq ρ] in
/-- A listener value without a mask stands for the hooks that it stands for with the default mask of
the configuration. -/
theorem Watched.withListener_unmasked [Collection C α] {newer : List (Factory ρ σ ν)}
    (hnewer : ∀ f ∈ newer, f.Declines) (older : List (Factory ρ σ ν)) (inner : C)
    (w : World ρ σ) :
    let registry : Registry ρ σ ν := ⟨older ++ .ofListeners obs :: newer⟩
    let listener mask : Listener ρ ν := ⟨.listeners { pair with mask }, name⟩
    Watched.withListener obs registry inner (some (listener none)) config w =
      Watched.withListener obs registry inner (some (listener (some config.defaultMask)))
        config w := by
  intro registry listener
  have hreverse : registry.factories.reverse =
      newer.reverse ++ .ofListeners obs :: older.reverse := by
    simp [registry]
  have hdeclines : ∀ f ∈ newer.reverse, f.Declines := fun f hf => hnewer f (List.mem_reverse.1 hf)
  have hask := Registry.ask_unmasked obs pair name config hdeclines older.reverse w.freshId.1
    w.freshId.2
  have hresolve : registry.resolve obs w.freshId.1 (some (listener none)) config w.freshId.2 =
      registry.resolve obs w.freshId.1 (some (listener (some config.defaultMask))) config
        w.freshId.2 := by
    simp only [Registry.resolve, hreverse, listener, hask]
  simp only [Watched.withListener, hresolve]

end Unmasked

/-! ### Runs -/

/-- **A guest changes nothing for the others.**  A run is a run without the guest: the same results,
the same containers and handlers, and the same minutes of everybody else.  A guest that was
registered hears, in order, of everything in its phase that has a kind from its mask, but is not
asked about what was vetoed already.  And if a listener value has no mask, it is the default mask of
the configuration. -/
theorem Panel.Hosts.transparent [ObjectIdentity α] [Collection C α] [Traversal C κ α] [BEq α]
    [Noting C] {panel bare : Panel ρ α} {guest : ρ} (hp : panel.Hosts bare guest)
    (fam : Family C κ α) (depth : Nat) :
    (∀ script (s : Session C κ α) w,
      bare.beats fam depth (script.filter fun x => !x.involves (some guest)) s
          (w.revised (.erasing guest)) =
        ((panel.beats fam depth script s w).filter
          fun b => !b.happening.involves (some guest)).map (·.revised (.erasing guest))) ∧
    (∀ (w : MinutedWorld ρ α) ref p mask (x : Request ρ α), w.Lacks guest →
      w.Enrols guest ref p mask x →
      (w.grant (panel.observers depth) x).2.Enlists guest ref p mask) ∧
    (panel.Quiet guest → ∀ (w : MinutedWorld ρ α) ref p mask, w.Enlists guest ref p mask →
      ∀ script, (∀ x ∈ script, x.listener? ≠ some guest) → ∀ s : Session C κ α,
      ∀ b ∈ panel.beats fam (depth + 1) script s w, b.Hears guest ref p mask) ∧
    ∀ (obs : Observers ρ σ α) (older newer : List (Factory ρ σ ν)) (pair : ListenerPair ρ)
      (name : String) (config : Config) (inner : C) (w : World ρ σ),
      (∀ f ∈ newer, f.Declines) →
      let registry : Registry ρ σ ν := ⟨older ++ .ofListeners obs :: newer⟩
      let listener mask : Listener ρ ν := ⟨.listeners { pair with mask }, name⟩
      Watched.withListener obs registry inner (some (listener none)) config w =
        Watched.withListener obs registry inner (some (listener (some config.defaultMask)))
          config w :=
  ⟨fun script s w => Panel.beats_revised (hp.revises depth) fam script s w,
    fun _ _ _ _ _ hw hx => hx.enlists hw,
    fun hq _ _ _ _ hw _ hscript s => hq.hears depth hw fam hscript s,
    fun obs older _ pair name config inner w hnewer =>
      Watched.withListener_unmasked obs pair name config hnewer older inner w⟩

/-- A list watched by a listener that accepts what it is asked about first and nothing after that,
and by one that is told of additions.  A guest is registered behind the first, through a sub-list
something is added, which the guest is asked about, and then everything is cleared, without
success, which the guest is not asked about. -/
theorem Panel.Hosts.transparent_vetoed :
    let panel : Panel Nat Int :=
      ⟨fun log l _ => .done (l != 1 || (Minute.received l log).isEmpty), fun _ _ _ => .done ()⟩
    let w : MinutedWorld Nat Int :=
      { (Standard.sequence (α := Int)).world with
        hooks := #[.managed ⟨[⟨1, .changing⟩], [⟨2, .adding⟩], {}⟩]
        outside := [] }
    let fam : Family (Sequence Int) PositionCursor Int := .list inferInstance
    let guest : Request Nat Int := .register ⟨0⟩ .pre 3 .changing
    let script : List (Happening Nat Int) :=
      [.action (.openFrame (.subList 0 1)), .action (.command (.add 7)), .action (.command .clear)]
    let w' := (w.grant (panel.observers 1) guest).2
    let run := panel.beats fam 1 script (Watched.alone ⟨[1, 2]⟩).session
    (run w').map (fun b => (Minute.eventsAsked 3 b.worldAfter.outside).map (·.kind)) =
        [[], [.add], [.add]] ∧
      (run w').map (fun b => (Minute.consultations b.worldAfter.outside).map (·.calls)) =
        [[], [[(1, true), (3, true)]], [[(1, true), (3, true)], [(1, false)]]] ∧
      run (w'.revised (.erasing 3)) = (run w').map (·.revised (.erasing 3)) ∧
      ∀ b ∈ run w', b.Hears 3 ⟨0⟩ .pre .changing := by
  intro panel w fam guest script w' run
  have hquiet : panel.Quiet 3 := ⟨fun _ _ _ => .done _, fun _ _ _ => .done _⟩
  have hattentive : panel.Attentive :=
    ⟨fun log log' l e h => by simp only [panel, h], fun _ _ _ _ _ => rfl⟩
  have hp : panel.Hosts panel 3 := hattentive.hosts (fun _ _ => rfl) (fun _ _ => rfl)
    (fun _ _ _ => .done _) (fun _ _ _ => .done _)
  obtain ⟨htransparent, henlists, -⟩ := hp.transparent (σ := Unit) (ν := Unit) fam 1
  obtain ⟨-, -, hhears, -⟩ := hp.transparent (σ := Unit) (ν := Unit) fam 0
  have hlacks : w.Lacks 3 := by
    intro ref
    obtain ⟨i⟩ := ref
    cases i with
    | zero =>
      intro p r hr
      cases p <;> (simp [ManagedHooks.registered] at hr; simp [hr])
    | succ i => trivial
  have henrols : w.Enrols 3 ⟨0⟩ .pre .changing guest := .register rfl rfl rfl _
  have hscript : ∀ x ∈ script, x.listener? ≠ some 3 := by
    simp [script, Happening.listener?]
  have hbeats : (run w').all fun b => !b.happening.involves (some 3) := by
    decide +kernel +zetaReduce
  refine ⟨?_, ?_, ?_, ?_⟩
  · decide +kernel +zetaReduce
  · decide +kernel +zetaReduce
  · have hrun := htransparent script (Watched.alone ⟨[1, 2]⟩).session w'
    rw [List.filter_eq_self.2 (List.all_eq_true.1 hbeats)] at hrun
    exact hrun
  · exact hhears hquiet w' _ _ _ (henlists w _ _ _ guest hlacks henrols) script hscript _

end WatchedContainers
