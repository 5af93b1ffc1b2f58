import WatchedContainers.Proofs.Binding
import WatchedContainers.Proofs.Descent
import WatchedContainers.Watched.Depth

/-!
# How deep views nest

* `World.Forbids.first?`: below the limit a view does not fail for the depth.
* `World.makeRangeView_eq`, `World.makeKeyedView_eq`: **a bound handler makes views** unless an
  obstacle stands, and then nothing happens.
* `World.Nests.level`: after any number of tries the handler made last is that much deeper, or at
  the limit.
* `World.Makes.range`: **an identity is given once.**
* `World.watches_of_withRoot`, `World.watches_of_withListener`: a container that is watched is
  served by a bound handler.
* `SubList.openIn_eq`, `SortedView.openIn_eq`: **a view is opened** unless an obstacle stands, and
  then nothing happens.
-/

namespace WatchedContainers

variable {ρ σ ν C κ α : Type}

theorem Obstacle.first?_cons (o : Obstacle) (os : List Obstacle) :
    first? (o :: os) = if o.stands then some o.error else first? os := by
  rw [first?, List.find?_cons]
  cases o.stands <;> rfl

/-! ### Handlers -/

namespace World

variable {w w' w'' : World ρ σ} {obs : Observers ρ σ α} {h h' parent ref root : HandlerRef}
  {config : Config} {depth n : Nat} {b : Option Binding} {caps : Capabilities}

theorem Level.later (hl : w.Level h config depth) (hw : w.Later w') : w'.Level h config depth := by
  have hlt := index_lt_of_isBound hl.isBound
  exact ⟨hw.isBound hl.isBound, (hw.config h hlt).trans hl.config, (hw.depth h hlt).trans hl.depth,
    hl.le⟩

/-! ### What forbids a view -/

theorem first?_keyedObstacles (x : Handler) :
    Obstacle.first? (keyedObstacles x) =
      if x.config.maxViewDepth ≤ x.depth then some (.viewDepthExceeded x.config.maxViewDepth)
      else none := by
  rw [keyedObstacles, Obstacle.first?_cons]
  by_cases hdeep : x.config.maxViewDepth ≤ x.depth
  · rw [if_pos (decide_eq_true hdeep), if_pos hdeep]
  · rw [if_neg (mt of_decide_eq_true hdeep), if_neg hdeep]
    rfl

theorem first?_rangeObstacles (x : Handler) (start stop : Nat) :
    Obstacle.first? (rangeObstacles x start stop) =
      if start > stop then some (.invalidArgument (.reversedRange start stop))
      else Obstacle.first? (keyedObstacles x) := by
  rw [rangeObstacles, Obstacle.first?_cons]
  by_cases hrange : start > stop
  · rw [if_pos (decide_eq_true hrange), if_pos hrange]
  · rw [if_neg (mt of_decide_eq_true hrange), if_neg hrange]

/-- Below the limit a view does not fail for the depth, and at the limit every view fails. -/
theorem Forbids.first? {x : Handler} {os : List Obstacle} (hos : Forbids x os) :
    match Obstacle.first? os with
    | some e => x.depth < x.config.maxViewDepth → ∀ limit, e ≠ .viewDepthExceeded limit
    | none => x.depth < x.config.maxViewDepth := by
  induction hos with
  | deep =>
    rw [first?_keyedObstacles]
    by_cases hdeep : x.config.maxViewDepth ≤ x.depth
    · rw [if_pos hdeep]
      intro hlt
      omega
    · rw [if_neg hdeep]
      show x.depth < x.config.maxViewDepth
      omega
  | @cons o os ho _ ih =>
    rw [Obstacle.first?_cons]
    cases o.stands with
    | true => exact fun _ => ho
    | false => exact ih

theorem forbids_rangeObstacles (x : Handler) (start stop : Nat) :
    Forbids x (rangeObstacles x start stop) :=
  .cons nofun .deep

/-! ### Views that are made -/

namespace Adds

theorem size (ha : w.Adds parent b w') : w'.handlers.size = w.handlers.size + 1 := by
  obtain ⟨x, hx, -⟩ := ha.handlers
  rw [hx, Array.size_push]

theorem index_lt (ha : w.Adds parent b w') :
    (⟨w.handlers.size⟩ : HandlerRef).index < w'.handlers.size :=
  Nat.lt_of_lt_of_eq (Nat.lt_succ_self _) ha.size.symm

theorem handler_of_lt (ha : w.Adds parent b w') (hlt : h.index < w.handlers.size) :
    w'.handler h = w.handler h := by
  obtain ⟨x, hx, -⟩ := ha.handlers
  rw [handler, hx]
  exact handler_addHandler w x hlt

theorem handler_new (ha : w.Adds parent b w') :
    (w'.handler ⟨w.handlers.size⟩).binding = b ∧
      (w'.handler ⟨w.handlers.size⟩).depth = (w.handler parent).depth + 1 ∧
      (w'.handler ⟨w.handlers.size⟩).config = (w.handler parent).config := by
  obtain ⟨x, hx, hfields⟩ := ha.handlers
  have hself : w'.handler ⟨w.handlers.size⟩ = x := by
    rw [handler, hx]
    exact handler_addHandler_self w x
  rw [hself]
  exact hfields

theorem later (ha : w.Adds parent b w') (hid : w.nextId ≤ w'.nextId) : w.Later w' where
  nextId_le := hid
  size_le := by
    rw [ha.size]
    exact Nat.le_succ _
  role h hlt := congrArg _ (ha.handler_of_lt hlt)
  depth h hlt := congrArg _ (ha.handler_of_lt hlt)
  config h hlt := congrArg _ (ha.handler_of_lt hlt)
  binding h hb := congrArg _ (ha.handler_of_lt (index_lt_of_isBound hb))

theorem bind (ha : w.Adds parent none w') (obs : Observers ρ σ α) (hcaps : ¬ caps.isEmpty) :
    ∃ w'', w'.freshId.2.bind obs ⟨w.handlers.size⟩ w'.freshId.1 caps = (.ok (), w'') ∧
      w.Adds parent (some ⟨⟨w'.nextId⟩, caps⟩) w'' ∧ w''.nextId = w'.nextId + 1 := by
  obtain ⟨x, hx, -, hdepth, hconfig⟩ := ha.handlers
  have hunbound : (w'.freshId.2.handler ⟨w.handlers.size⟩).binding = none := ha.handler_new.1
  obtain ⟨t, hbind⟩ := bind_of_unbound obs w'.freshId.1 hcaps hunbound
  refine ⟨_, hbind, ⟨⟨{ x with binding := some ⟨⟨w'.nextId⟩, caps⟩ }, ?_, rfl, hdepth, hconfig⟩,
    ha.hooks⟩, rfl⟩
  simp only [emit, modifyHandler, freshId, hx]
  refine Array.ext_getElem? fun i => ?_
  rw [Array.getElem?_modify, Array.getElem?_push, Array.getElem?_push]
  by_cases hi : i = w.handlers.size
  · rw [if_pos hi.symm, if_pos hi, if_pos hi]
    rfl
  · rw [if_neg (Ne.symm hi), if_neg hi, if_neg hi]

end Adds

section Made

variable (hb : (w.handler h).isBound)

include hb

/-- **A bound handler makes a keyed view** if it does not lie at the limit. -/
theorem makeKeyedView_eq (obs : Observers ρ σ α) :
    match Obstacle.first? (keyedObstacles (w.handler h)) with
    | some e => w.makeKeyedView obs h = (.error e, w)
    | none => ∃ w', w.makeKeyedView obs h = (.ok ⟨w.handlers.size⟩, w') ∧ w.Adds h none w' ∧
        w'.nextId = w.nextId := by
  rw [first?_keyedObstacles]
  simp only [makeKeyedView, hb, Bool.not_true, Bool.false_eq_true, if_false, depthBelow]
  by_cases hdeep : (w.handler h).config.maxViewDepth ≤ (w.handler h).depth
  · rw [if_pos hdeep, if_pos (Nat.lt_succ_of_le hdeep)]
  · rw [if_neg hdeep, if_neg (by omega)]
    exact ⟨_, rfl, ⟨⟨_, rfl, rfl, rfl, rfl⟩, rfl⟩, rfl⟩

/-- **A bound handler makes a range view** if the range is one and the handler does not lie at the
limit. -/
theorem makeRangeView_eq (obs : Observers ρ σ α) (start stop : Nat) :
    match Obstacle.first? (rangeObstacles (w.handler h) start stop) with
    | some e => w.makeRangeView obs h start stop = (.error e, w)
    | none => ∃ w', w.makeRangeView obs h start stop = (.ok ⟨w.handlers.size⟩, w') ∧
        w.Adds h none w' ∧ w'.nextId = w.nextId := by
  rw [first?_rangeObstacles, first?_keyedObstacles]
  simp only [makeRangeView, hb, Bool.not_true, Bool.false_eq_true, if_false, depthBelow]
  by_cases hrange : start > stop
  · rw [if_pos hrange, if_pos hrange]
  · rw [if_neg hrange, if_neg hrange]
    by_cases hdeep : (w.handler h).config.maxViewDepth ≤ (w.handler h).depth
    · rw [if_pos hdeep, if_pos (Nat.lt_succ_of_le hdeep)]
    · rw [if_neg hdeep, if_neg (by omega)]
      exact ⟨_, rfl, ⟨⟨_, rfl, rfl, rfl, rfl⟩, rfl⟩, rfl⟩

end Made

/-- A try makes a handler, one that does not lie at the limit, or leaves everything as it is; and
below the limit it does not fail for the depth. -/
theorem Tries.cases {x : Except Error HandlerRef × World ρ σ} (hb : (w.handler h).isBound)
    (ht : Tries obs w h x) :
    (∃ w', x = (.ok ⟨w.handlers.size⟩, w') ∧ w.Adds h none w' ∧
        (w.handler h).depth < (w.handler h).config.maxViewDepth) ∨
      ∃ e, x = (.error e, w) ∧ ((w.handler h).depth < (w.handler h).config.maxViewDepth →
        ∀ limit, e ≠ .viewDepthExceeded limit) := by
  obtain ⟨os, hos, heq⟩ : ∃ os, Forbids (w.handler h) os ∧
      match Obstacle.first? os with
      | some e => x = (.error e, w)
      | none => ∃ w', x = (.ok ⟨w.handlers.size⟩, w') ∧ w.Adds h none w' ∧
          w'.nextId = w.nextId := by
    cases ht with
    | range start stop =>
      exact ⟨_, forbids_rangeObstacles _ start stop, makeRangeView_eq hb obs start stop⟩
    | keyed => exact ⟨_, .deep, makeKeyedView_eq hb obs⟩
  have hdeep := hos.first?
  cases hfirst : Obstacle.first? os with
  | some e =>
    rw [hfirst] at heq hdeep
    exact .inr ⟨e, heq, hdeep⟩
  | none =>
    rw [hfirst] at heq hdeep
    obtain ⟨w', hw', hadds, -⟩ := heq
    exact .inl ⟨w', hw', hadds, hdeep⟩

/-- **After `n` tries the handler made last is `n` deeper**, or lies at the limit, whatever kinds of
views were made. -/
theorem Nests.level (hl : w.Level h config depth) (hn : Nests obs n h w h' w') :
    w'.Level h' config (min (depth + n) config.maxViewDepth) := by
  induction hn with
  | refl => exact (Nat.min_eq_left hl.le).symm ▸ hl
  | elsewhere _ hlater ih => exact (ih hl).later hlater
  | made _ ht hlater hbound ih =>
    obtain ⟨hb, hconfig, hdepth, -⟩ := ih hl
    rcases ht.cases hb with ⟨v, heq, hadds, hlt⟩ | ⟨e, heq, -⟩
    · cases heq
      obtain ⟨-, hdepth', hconfig'⟩ := hadds.handler_new
      refine ⟨hbound, ?_, ?_, Nat.min_le_right _ _⟩
      · rw [hlater.config _ hadds.index_lt, hconfig', hconfig]
      · rw [hconfig, hdepth] at hlt
        rw [hlater.depth _ hadds.index_lt, hdepth', hdepth]
        omega
    · cases heq
  | refused _ ht ih =>
    obtain ⟨hb, hconfig, hdepth, -⟩ := ih hl
    rcases ht.cases hb with ⟨v, heq, -⟩ | ⟨e, heq, hdeep⟩
    · cases heq
    · cases heq
      have hle := Nat.le_of_not_lt fun hlt => hdeep hlt _ rfl
      rw [hconfig, hdepth] at hle
      refine ⟨hb, hconfig, ?_, Nat.min_le_right _ _⟩
      rw [hdepth]
      omega

/-! ### Identities -/

theorem nextId_of_bind {id : ContainerId} {r : Except Error Unit}
    (hbind : w.bind obs h id caps = (r, w')) : w'.nextId = w.nextId := by
  have hcases := bind_cases obs w h id caps
  rw [hbind] at hcases
  rcases hcases with heq | ⟨t, -, heq⟩
  · exact congrArg World.nextId heq
  · exact (congrArg World.nextId heq).trans rfl

end World

section Makes

variable {w w' : World ρ σ} {obs : Observers ρ σ α} {h : HandlerRef}

theorem Registry.later_ask {fs : List (Factory ρ σ ν)} (hfs : ∀ f ∈ fs, f.Lawful)
    (container : ContainerId) (l : Listener ρ ν) (config : Config) (w : World ρ σ) :
    w.Later (ask container l config fs w).2 := by
  induction fs generalizing w with
  | nil => exact .refl w
  | cons f rest ih =>
    have hfirst := hfs f List.mem_cons_self container l config w
    unfold ask
    cases hf : f.create container l config w with
    | mk r w' =>
      rw [hf] at hfirst
      cases r with
      | some ref => exact hfirst
      | none => exact hfirst.trans (ih (fun f hf => hfs f (List.mem_cons_of_mem _ hf)) w')

theorem Registry.later_resolve {r : Registry ρ σ ν} (hr : ∀ f ∈ r.factories, f.Lawful)
    (obs : Observers ρ σ α) (container : ContainerId) (listener : Option (Listener ρ ν))
    (config : Config) (w : World ρ σ) : w.Later (r.resolve obs container listener config w).2 := by
  unfold resolve
  cases listener with
  | none =>
    have hhooks : w.Later (w.addHooks (.managed { config })).2 := .of_handlers (Nat.le_refl _) rfl
    exact hhooks.trans (.of_addHandler ..)
  | some l =>
    have hfs : ∀ f ∈ r.factories.reverse, f.Lawful := fun f hf => hr f (List.mem_reverse.1 hf)
    have hask := later_ask hfs container l config w
    simp only
    cases hasked : ask container l config r.factories.reverse w with
    | mk answer w' =>
      rw [hasked] at hask
      cases answer with
      | some ref => exact hask.trans (.of_addHandler ..)
      | none => exact hask.trans (World.later_emit ..)

variable [Collection C α]

theorem Watched.eq_of_bind {inner : C} {id : ContainerId} {c : Watched C}
    (hbind : Watched.bind obs inner h id w = (.ok c, w')) :
    c = ⟨inner, h, id⟩ ∧ w.bind obs h id (Collection.capabilities C) = (.ok (), w') := by
  unfold Watched.bind at hbind
  cases hr : w.bind obs h id (Collection.capabilities C) with
  | mk r v =>
    rw [hr] at hbind
    cases r with
    | error e => cases hbind
    | ok =>
      cases hbind
      exact ⟨rfl, rfl⟩

theorem SubList.id_of_openIn [Positional C α] {x : Segment C} {start stop : Nat} {v : SubList C}
    (hopen : openIn obs h x start stop w = (.ok v, w')) :
    v.id = ⟨w.nextId⟩ ∧ w'.nextId = w.nextId + 1 := by
  unfold openIn at hopen
  split at hopen
  · cases hopen
  · cases hview : w.makeRangeView obs h start stop with
    | mk r w₁ =>
      cases r with
      | error e => simp [hview] at hopen
      | ok ref =>
        obtain ⟨t, y, -, rfl, rfl⟩ := World.eq_of_makeRangeView hview
        simp only [hview] at hopen
        split at hopen
        next => cases hopen
        next w₂ hbind =>
          cases hopen
          exact ⟨rfl, World.nextId_of_bind hbind⟩

theorem SortedView.id_of_openIn [Ord α] {x : SubRange C α} {bounds : Bounds α}
    {v : SortedView C α} (hopen : openIn obs h x bounds w = (.ok v, w')) :
    v.id = ⟨w.nextId⟩ ∧ w'.nextId = w.nextId + 1 := by
  unfold openIn at hopen
  cases hview : w.makeKeyedView obs h with
  | mk r w₁ =>
    cases r with
    | error e => simp [hview] at hopen
    | ok ref =>
      obtain ⟨t, y, -, rfl, rfl⟩ := World.eq_of_makeKeyedView hview
      simp only [hview] at hopen
      split at hopen
      next => cases hopen
      next w₂ hbind =>
        cases hopen
        exact ⟨rfl, World.nextId_of_bind hbind⟩

omit [Collection C α] in
/-- **An identity is given once**: it was not taken before, and is taken then. -/
theorem World.Makes.range {id : ContainerId} (hm : Makes obs id w w') :
    w.nextId ≤ id.number ∧ id.number < w'.nextId := by
  cases hm with
  | withRoot inner handler c _ _ h =>
    obtain ⟨rfl, hbind⟩ := Watched.eq_of_bind h
    exact ⟨Nat.le_refl _, Nat.lt_of_lt_of_eq (Nat.lt_succ_self _) (nextId_of_bind hbind).symm⟩
  | withListener registry hlawful inner listener config c _ _ h =>
    have hlater := Registry.later_resolve hlawful obs w.freshId.1 listener config w.freshId.2
    unfold Watched.withListener at h
    cases hr : registry.resolve obs w.freshId.1 listener config w.freshId.2 with
    | mk r v =>
      rw [hr] at hlater
      simp only [hr] at h
      cases r with
      | error e => cases h
      | ok handler =>
        obtain ⟨rfl, hbind⟩ := Watched.eq_of_bind h
        exact ⟨Nat.le_refl _, Nat.lt_of_lt_of_eq hlater.nextId_le (nextId_of_bind hbind).symm⟩
  | subList parent x start stop v _ _ h =>
    obtain ⟨hid, hnext⟩ := SubList.id_of_openIn h
    rw [hid, hnext]
    exact ⟨Nat.le_refl _, Nat.lt_succ_self _⟩
  | sortedView parent x bounds v _ _ h =>
    obtain ⟨hid, hnext⟩ := SortedView.id_of_openIn h
    rw [hid, hnext]
    exact ⟨Nat.le_refl _, Nat.lt_succ_self _⟩

end Makes

/-! ### Containers that are watched -/

section Watch

variable {w w' : World ρ σ} {obs : Observers ρ σ α} {h : HandlerRef} {config : Config}

theorem Factory.lawful_readyMade : (readyMade : Factory ρ σ ν).Lawful := by
  rintro container ⟨value, name⟩ config w
  cases value <;> exact .refl w

theorem Factory.lawful_ofListeners : (ofListeners obs : Factory ρ σ ν).Lawful := by
  have henrol : ∀ (w : World ρ σ) ref p l mask, w.Later (w.enrol obs ref p l mask) := by
    intro w ref p l mask
    unfold World.enrol
    split
    · exact .of_handlers (Nat.le_refl _) rfl
    · exact .refl w
  rintro container ⟨value, name⟩ config w
  cases value with
  | listeners pair =>
    have hadd : w.Later (w.addHooks (.managed { config })).2 := .of_handlers (Nat.le_refl _) rfl
    exact (hadd.trans (henrol ..)).trans (henrol ..)
  | hooks | other => exact .refl w

theorem World.handler_rootOver (w : World ρ σ) (ref : HooksRef) (config : Config) :
    (w.rootOver ref config).1.index < (w.rootOver ref config).2.handlers.size ∧
      (w.rootOver ref config).2.handler (w.rootOver ref config).1 = { role := .root ref, config } := by
  refine ⟨?_, handler_addHandler_self w _⟩
  simp [rootOver, addHandler]

theorem Registry.handler_of_resolve {r : Registry ρ σ ν} {container : ContainerId}
    {listener : Option (Listener ρ ν)}
    (hresolve : r.resolve obs container listener config w = (.ok h, w')) :
    h.index < w'.handlers.size ∧ (w'.handler h).config = config ∧ (w'.handler h).depth = 0 := by
  unfold resolve at hresolve
  cases listener with
  | none =>
    obtain ⟨hlt, heq⟩ := (w.addHooks (.managed { config })).2.handler_rootOver
      (w.addHooks (.managed { config })).1 config
    cases hresolve
    exact ⟨hlt, congrArg _ heq, congrArg _ heq⟩
  | some l =>
    simp only at hresolve
    split at hresolve
    next ref v hask =>
      obtain ⟨hlt, heq⟩ := v.handler_rootOver ref config
      cases hresolve
      exact ⟨hlt, congrArg _ heq, congrArg _ heq⟩
    next => cases hresolve

variable {C : Type} [Collection C α] {inner : C} {c : Watched C}

theorem World.watches_of_bind {id : ContainerId} (hlt : h.index < w.handlers.size)
    (hle : (w.handler h).depth ≤ (w.handler h).config.maxViewDepth)
    (hbind : Watched.bind obs inner h id w = (.ok c, w')) :
    w'.Watches c (w.handler h).config (w.handler h).depth := by
  obtain ⟨rfl, hbound⟩ := Watched.eq_of_bind hbind
  have hcaps : ¬ (Collection.capabilities C).isEmpty := by
    intro hcaps
    rw [bind_of_isEmpty obs w h id hcaps] at hbound
    cases hbound
  have hunbound : (w.handler h).binding = none := by
    by_contra hsome
    have hb := Option.isSome_iff_ne_none.2 hsome
    rw [bind_of_isBound obs id hcaps hb] at hbound
    cases hbound
  obtain ⟨t, heq⟩ := bind_of_unbound obs id hcaps hunbound
  rw [heq] at hbound
  cases hbound
  have hserved := handler_withBinding hlt ⟨id, Collection.capabilities C⟩
  exact ⟨⟨congrArg Handler.isBound hserved, (congrArg Handler.config hserved).trans rfl,
    (congrArg Handler.depth hserved).trans rfl, hle⟩, hcaps⟩

theorem World.watches_of_withRoot (hlt : h.index < w.handlers.size)
    (hle : (w.handler h).depth ≤ (w.handler h).config.maxViewDepth)
    (hwatch : Watched.withRoot obs inner h w = (.ok c, w')) :
    w'.Watches c (w.handler h).config (w.handler h).depth :=
  watches_of_bind (w := w.freshId.2) hlt hle hwatch

theorem World.watches_of_withListener {registry : Registry ρ σ ν} {listener : Option (Listener ρ ν)}
    (hwatch : Watched.withListener obs registry inner listener config w = (.ok c, w')) :
    w'.Watches c config 0 := by
  unfold Watched.withListener at hwatch
  simp only at hwatch
  split at hwatch
  next => cases hwatch
  next handler v hresolve =>
    obtain ⟨hlt, hconfig, hdepth⟩ := Registry.handler_of_resolve hresolve
    have hwatches := watches_of_bind hlt (hdepth ▸ Nat.zero_le _) hwatch
    rwa [hconfig, hdepth] at hwatches

end Watch

/-! ### Views that are opened -/

section Open

variable {w w' : World ρ σ} {h : HandlerRef} [Collection C α] (hb : (w.handler h).isBound)
  (hcaps : ¬ (Collection.capabilities C).isEmpty) (obs : Observers ρ σ α)

include hb hcaps

theorem SubList.openIn_eq [Positional C α] (x : Segment C) (start stop : Nat) :
    match Obstacle.first? (⟨decide (stop > x.length), .indexOutOfBounds stop x.length⟩ ::
      World.rangeObstacles (w.handler h) start stop) with
    | some e => openIn obs h x start stop w = (.error e, w)
    | none => ∃ v w', openIn obs h x start stop w = (.ok v, w') ∧
        v.handler = ⟨w.handlers.size⟩ ∧
        w.Adds h (some ⟨⟨w.nextId⟩, Collection.capabilities C⟩) w' := by
  rw [Obstacle.first?_cons, openIn]
  by_cases hstop : stop > x.length
  · rw [if_pos (decide_eq_true hstop), if_pos hstop]
  · rw [if_neg (mt of_decide_eq_true hstop), if_neg hstop]
    have heq := World.makeRangeView_eq hb obs start stop
    cases hfirst : Obstacle.first? (World.rangeObstacles (w.handler h) start stop) with
    | some e =>
      rw [hfirst] at heq
      simp only [heq]
    | none =>
      rw [hfirst] at heq
      obtain ⟨w₁, hview, hadds, hid⟩ := heq
      obtain ⟨w₂, hbind, hadds', -⟩ := hadds.bind obs hcaps
      rw [hid] at hadds'
      simp only [hview, hbind]
      exact ⟨_, _, rfl, rfl, hadds'⟩

theorem SortedView.openIn_eq [Ord α] (x : SubRange C α) (bounds : Bounds α) :
    match Obstacle.first? (World.keyedObstacles (w.handler h)) with
    | some e => openIn obs h x bounds w = (.error e, w)
    | none => ∃ v w', openIn obs h x bounds w = (.ok v, w') ∧ v.handler = ⟨w.handlers.size⟩ ∧
        w.Adds h (some ⟨⟨w.nextId⟩, Collection.capabilities C⟩) w' := by
  rw [openIn]
  have heq := World.makeKeyedView_eq hb obs
  cases hfirst : Obstacle.first? (World.keyedObstacles (w.handler h)) with
  | some e =>
    rw [hfirst] at heq
    simp only [heq]
  | none =>
    rw [hfirst] at heq
    obtain ⟨w₁, hview, hadds, hid⟩ := heq
    obtain ⟨w₂, hbind, hadds', -⟩ := hadds.bind obs hcaps
    rw [hid] at hadds'
    simp only [hview, hbind]
    exact ⟨_, _, rfl, rfl, hadds'⟩

theorem SortedView.openBetween_eq [Ord α] (x : SubRange C α) (start stop : α) :
    match Obstacle.first? (⟨compare start stop == .gt, .invalidArgument .reversedSubSet⟩ ::
      World.keyedObstacles (w.handler h)) with
    | some e => openBetween obs h x start stop w = (.error e, w)
    | none => ∃ v w', openBetween obs h x start stop w = (.ok v, w') ∧
        openIn obs h x ⟨.included start, .excluded stop⟩ w = (.ok v, w') ∧
        v.handler = ⟨w.handlers.size⟩ ∧
        w.Adds h (some ⟨⟨w.nextId⟩, Collection.capabilities C⟩) w' := by
  rw [Obstacle.first?_cons, openBetween]
  by_cases hreversed : (compare start stop == .gt) = true
  · rw [if_pos hreversed, if_pos hreversed]
  · rw [if_neg hreversed, if_neg hreversed]
    have heq := openIn_eq hb hcaps obs x ⟨.included start, .excluded stop⟩
    cases hfirst : Obstacle.first? (World.keyedObstacles (w.handler h)) with
    | some e =>
      rw [hfirst] at heq
      exact heq
    | none =>
      rw [hfirst] at heq
      obtain ⟨v, w', hopen, hadds⟩ := heq
      exact ⟨v, w', hopen, hopen, hadds⟩

end Open

end WatchedContainers
