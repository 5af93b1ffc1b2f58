import WatchedContainers.Proofs.Lasting
import WatchedContainers.Watched.Basic

/-!
# Bound once

A handler waits until it is bound, and is bound once and for all.

* `World.waits_of_unbound`: a handler that waits fails whatever would raise an event or make a view,
  and nobody is called.
* `World.binding_grant`: **one request** binds a handler that waits, or leaves it waiting.
* `World.Approached.binding_eq`: after any requests the handler is bound as the first of them said
  that could bind it.
* `World.Approached.bound_once`: **what calls of the handler come to**, at any time.
-/

namespace WatchedContainers

variable {ρ σ α : Type}

namespace World

variable {w w' w₀ : World ρ σ} {h : HandlerRef} {b : Binding}

/-! ### One call -/

theorem handler_withBinding (hlt : h.index < w.handlers.size) (b : Binding) :
    (w.modifyHandler h fun x => { x with binding := some b }).handler h =
      { w.handler h with binding := some b } := by
  rw [handler_modifyHandler _ _ _ _ hlt, if_pos rfl]

theorem bind_of_isEmpty (obs : Observers ρ σ α) (w : World ρ σ) (h : HandlerRef) (id : ContainerId)
    {caps : Capabilities} (hcaps : caps.isEmpty) :
    w.bind obs h id caps = (.error (.invalidArgument (.noCapabilities id)), w) := by
  rw [bind, if_pos hcaps]

theorem bind_of_isBound (obs : Observers ρ σ α) (id : ContainerId) {caps : Capabilities}
    (hcaps : ¬ caps.isEmpty) (hb : (w.handler h).isBound) :
    w.bind obs h id caps = (.error .alreadyBound, w) := by
  rw [bind, if_neg hcaps, if_pos hb]

theorem bind_of_unbound (obs : Observers ρ σ α) (id : ContainerId) {caps : Capabilities}
    (hcaps : ¬ caps.isEmpty) (hb : (w.handler h).binding = none) :
    ∃ t, w.bind obs h id caps =
      (.ok (), (w.modifyHandler h fun x => { x with binding := some ⟨id, caps⟩ }).emit obs t) := by
  have hunbound : ¬ (w.handler h).isBound := by rw [isBound_eq_false.2 hb]; exact Bool.false_ne_true
  rw [bind, if_neg hcaps, if_neg hunbound]
  exact ⟨_, rfl⟩

/-- **While a handler is not bound** nobody is called, and the world stays what it is. -/
theorem waits_of_unbound [ObjectIdentity α] (hb : (w.handler h).binding = none) :
    w.Waits α h where
  propose obs m size := by simp only [World.propose, hb]
  conclude obs c size := by
    unfold World.conclude
    cases c.absent? with
    | some kind => rfl
    | none => simp only [hb]
  rangeView obs start stop := by
    simp only [makeRangeView, isBound_eq_false.2 hb, Bool.not_false, if_true]
  keyedView obs := by
    simp only [makeKeyedView, isBound_eq_false.2 hb, Bool.not_false, if_true]

/-! ### One request -/

theorem handlers_onManagedHooks {β : Type} (obs : Observers ρ σ α) (w : World ρ σ)
    (h' : HandlerRef) {operation : String}
    {f : HooksRef → ManagedHooks ρ → World ρ σ → β × World ρ σ}
    (hf : ∀ ref s, (f ref s w).2.handlers = w.handlers) :
    (w.onManagedHooks obs h' operation f).2.handlers = w.handlers := by
  rcases onManagedHooks_cases obs w h' operation f with heq | ⟨t, -, heq⟩ | ⟨ref, s, -, heq⟩
  · rw [heq]
  · rw [heq]
    rfl
  · rw [heq, hf]

variable [DecidableEq ρ] [ObjectIdentity α]

/-- **One request** binds a handler that waits, or leaves it waiting. -/
theorem binding_grant (hlt : h.index < w.handlers.size) (hb : (w.handler h).binding = none)
    (obs : Observers ρ σ α) {x : Request ρ α} (hx : x.handler? = some h) :
    ((w.grant obs x).2.handler h).binding = x.binding? := by
  have hwaits : w.Waits α h := waits_of_unbound hb
  have hsame : ∀ w' : World ρ σ, w'.handlers = w.handlers → (w'.handler h).binding = none := by
    intro w' hw'
    rw [handler, hw']
    exact hb
  cases x with
  | subscribe ref p l => simp [Request.handler?] at hx
  | register h' p l mask =>
    have hadd : (w.addListener obs h' p l mask).2.handlers = w.handlers :=
      handlers_onManagedHooks obs w h' fun _ _ => rfl
    exact hsame _ hadd
  | unregister h' p l =>
    have hremove : (w.removeListener obs h' p l).2.handlers = w.handlers :=
      handlers_onManagedHooks obs w h' fun _ _ => rfl
    exact hsame _ hremove
  | list h' p =>
    have hlist : (w.listeners obs h' p).2.handlers = w.handlers :=
      handlers_onManagedHooks obs w h' fun _ _ => rfl
    exact hsame _ hlist
  | propose h' m size =>
    obtain rfl := Option.some.inj hx
    simp only [grant, hwaits.propose]
    exact hb
  | conclude h' c size =>
    obtain rfl := Option.some.inj hx
    simp only [grant, hwaits.conclude]
    cases c.absent? <;> exact hb
  | rangeView h' start stop =>
    obtain rfl := Option.some.inj hx
    simp only [grant, hwaits.rangeView]
    exact hb
  | keyedView h' =>
    obtain rfl := Option.some.inj hx
    simp only [grant, hwaits.keyedView]
    exact hb
  | bind h' id caps =>
    obtain rfl := Option.some.inj hx
    by_cases hcaps : caps.isEmpty
    · simp only [grant, bind_of_isEmpty obs w h' id hcaps, Request.binding?, if_pos hcaps]
      exact hb
    · obtain ⟨t, hbind⟩ := bind_of_unbound obs id hcaps hb
      simp only [grant, hbind, Request.binding?, if_neg hcaps]
      exact congrArg Handler.binding (handler_withBinding hlt ⟨id, caps⟩)

end World

/-! ### A container to serve -/

namespace Watched

variable {C : Type} [Collection C α] {w : World ρ σ} {h : HandlerRef} (obs : Observers ρ σ α)
  (inner : C)

theorem withRoot_of_isEmpty (w : World ρ σ) (h : HandlerRef)
    (hcaps : (Collection.capabilities C).isEmpty) :
    Watched.withRoot obs inner h w =
      (.error (.invalidArgument (.noCapabilities ⟨w.nextId⟩)), w.freshId.2) := by
  simp only [withRoot, bind, World.bind_of_isEmpty obs w.freshId.2 h _ hcaps]
  rfl

theorem withRoot_of_isBound (hcaps : ¬ (Collection.capabilities C).isEmpty)
    (hb : (w.handler h).isBound) :
    Watched.withRoot obs inner h w = (.error .alreadyBound, w.freshId.2) := by
  have hbound : (w.freshId.2.handler h).isBound := hb
  simp only [withRoot, bind, World.bind_of_isBound obs w.freshId.1 hcaps hbound]

theorem withRoot_of_unbound (hcaps : ¬ (Collection.capabilities C).isEmpty)
    (hlt : h.index < w.handlers.size) (hb : (w.handler h).binding = none) :
    let made := Watched.withRoot obs inner h w
    made.1 = .ok ⟨inner, h, ⟨w.nextId⟩⟩ ∧ (made.2.handler h).container? = some ⟨w.nextId⟩ ∧
      (made.2.handler h).capabilities = Collection.capabilities C := by
  have hunbound : (w.freshId.2.handler h).binding = none := hb
  obtain ⟨t, hbind⟩ := World.bind_of_unbound obs w.freshId.1 hcaps hunbound
  simp only [withRoot, bind, hbind]
  have hserved := World.handler_withBinding (w := w.freshId.2) hlt
    ⟨w.freshId.1, Collection.capabilities C⟩
  refine ⟨rfl, ?_, ?_⟩
  · exact congrArg Handler.container? hserved
  · exact congrArg Handler.capabilities hserved

end Watched

namespace World

variable {w w' w₀ : World ρ σ} {h : HandlerRef} [DecidableEq ρ] [ObjectIdentity α]

/-! ### Any number of requests -/

namespace Approached

variable {xs : List (Request ρ α)}

theorem later (hw : Approached h xs w₀ w) : w₀.Later w := by
  induction hw with
  | refl => exact .refl _
  | request _ _ _ hobs x _ ih => exact ih.trans (later_grant hobs.lawful x _)
  | elsewhere _ hlater _ ih => exact ih.trans hlater

/-- The handler is bound as the first request said that could bind it. -/
theorem binding_eq (hlt : h.index < w₀.handlers.size) (hb : (w₀.handler h).binding = none)
    (hw : Approached h xs w₀ w) :
    (w.handler h).binding = (xs.filterMap Request.binding?).head? := by
  induction hw with
  | refl => exact hb
  | @request xs w w' hw depth obs hobs x hx ih =>
    have hlt' : h.index < w'.handlers.size := Nat.lt_of_lt_of_le hlt hw.later.size_le
    rw [List.filterMap_append, List.head?_append, ← ih hlt hb]
    cases hbound : (w'.handler h).binding with
    | none =>
      rw [binding_grant hlt' hbound obs hx, Option.none_or]
      cases hb' : x.binding? <;> simp [hb']
    | some b =>
      have hisBound : (w'.handler h).isBound := by rw [Handler.isBound, hbound]; rfl
      rw [(later_grant hobs.lawful x w').binding h hisBound, hbound]
      rfl
  | elsewhere _ _ hbinding ih => rw [hbinding, ih hlt hb]

/-- **A handler is bound once.**  Any requests are made of a handler that exists and is not bound,
and among them whatever else does not bind it; the parties that answer make requests of their own,
nested to any depth.  Then it is bound as the first request to bind it said that named some
capability.  From then on its container, its capabilities and the kinds that it can raise are the
same, whatever happens.

To bind it without capabilities fails at any time, to bind it again fails, and neither changes
anything.  As long as it is not bound, whatever would raise an event or make a view fails, and
nobody is called.  A container can be watched with the handler if and only if its type has some
capability and the handler is not bound, and is served by the handler then. -/
theorem bound_once (hlt : h.index < w₀.handlers.size) (hb : (w₀.handler h).binding = none)
    (hw : Approached h xs w₀ w) :
    let first := (xs.filterMap Request.binding?).head?
    (w.handler h).binding = first ∧
    (∀ b depth w', first = some b →
      Relation.ReflTransGen (Venture (Observers.Ventures (α := α) depth)) w w' →
        (w'.handler h).container? = some b.container ∧
        (w'.handler h).capabilities = b.capabilities ∧
        (w'.handler h).raisable = .ofCapabilities b.capabilities) ∧
    (∀ (obs : Observers ρ σ α) (id : ContainerId) (caps : Capabilities),
      let tried := w.bind obs h id caps
      (caps.isEmpty → tried = (.error (.invalidArgument (.noCapabilities id)), w)) ∧
      (¬ caps.isEmpty → first.isSome → tried = (.error .alreadyBound, w)) ∧
      (¬ caps.isEmpty → first = none → tried.1 = .ok () ∧
        tried.2.handler h = { w.handler h with binding := some ⟨id, caps⟩ })) ∧
    (first = none → w.Waits α h) ∧
    ∀ (C : Type) [Collection C α] (obs : Observers ρ σ α) (inner : C),
      let caps := Collection.capabilities C
      let made := Watched.withRoot obs inner h w
      (caps.isEmpty →
        made = (.error (.invalidArgument (.noCapabilities ⟨w.nextId⟩)), w.freshId.2)) ∧
      (¬ caps.isEmpty → first.isSome → made = (.error .alreadyBound, w.freshId.2)) ∧
      (¬ caps.isEmpty → first = none → made.1 = .ok ⟨inner, h, ⟨w.nextId⟩⟩ ∧
        (made.2.handler h).container? = some ⟨w.nextId⟩ ∧
        (made.2.handler h).capabilities = caps) := by
  intro first
  have hfirst : (w.handler h).binding = first := hw.binding_eq hlt hb
  have hlt' : h.index < w.handlers.size := Nat.lt_of_lt_of_le hlt hw.later.size_le
  have hisBound : first.isSome → (w.handler h).isBound := by
    intro hsome
    rw [Handler.isBound, hfirst]
    exact hsome
  refine ⟨hfirst, fun b depth w' hsome hw' => ?_, fun obs id caps => ⟨?_, ?_, ?_⟩, fun hnone => ?_,
    fun C _ obs inner => ⟨?_, ?_, ?_⟩⟩
  · have hlater := later_of_ventures (fun _ hobs => hobs.lawful) hw'
    have hbinding : (w'.handler h).binding = some b := by
      rw [hlater.binding h (hisBound (by rw [hsome]; rfl)), hfirst, hsome]
    refine ⟨?_, ?_, ?_⟩
    · rw [Handler.container?, hbinding]
      rfl
    · rw [Handler.capabilities, hbinding]
    · rw [Handler.raisable, Handler.capabilities, hbinding]
  · exact bind_of_isEmpty obs w h id
  · exact fun hcaps hsome => bind_of_isBound obs id hcaps (hisBound hsome)
  · intro hcaps hnone
    obtain ⟨t, hbind⟩ := bind_of_unbound obs id hcaps (hfirst.trans hnone)
    rw [hbind]
    exact ⟨rfl, handler_withBinding hlt' ⟨id, caps⟩⟩
  · exact waits_of_unbound (hfirst.trans hnone)
  · exact Watched.withRoot_of_isEmpty obs inner w h
  · exact fun hcaps hsome => Watched.withRoot_of_isBound obs inner hcaps (hisBound hsome)
  · exact fun hcaps hnone => Watched.withRoot_of_unbound obs inner hcaps hlt' (hfirst.trans hnone)

/-- A listener that is asked tries to bind the handler that asks it.  The handler is a root that is
first of no use to anybody, then refuses to serve a container without capabilities, and is bound to
the third; neither the listener nor the last request binds it again. -/
theorem bound_once_to_third :
    let silent : Observers Nat Unit Int :=
      ⟨fun _ _ w => (true, w), fun _ _ w => w, fun _ => id, fun _ => id⟩
    let obs : Observers Nat Unit Int :=
      { silent with decide := fun _ e w => (true, (w.grant silent (.bind e.handler ⟨7⟩ .set)).2) }
    let w₀ : World Nat Unit :=
      { nextId := 8, handlers := #[{ role := .root ⟨0⟩ }]
        hooks := #[.managed ⟨[⟨0, .changing⟩], [], {}⟩], outside := () }
    let xs : List (Request Nat Int) :=
      [.rangeView ⟨0⟩ 2 1, .propose ⟨0⟩ .clear 5, .bind ⟨0⟩ ⟨2⟩ .empty, .bind ⟨0⟩ ⟨3⟩ .list,
        .propose ⟨0⟩ .clear 4, .bind ⟨0⟩ ⟨4⟩ .bag]
    let w := xs.foldl (fun w x => (w.grant obs x).2) w₀
    (w.handler ⟨0⟩).preSize = 4 ∧
      (w.handler ⟨0⟩).binding = some ⟨⟨3⟩, .list⟩ ∧
      (Watched.withRoot obs (⟨[1]⟩ : Sequence Int) ⟨0⟩ w).1 = .error .alreadyBound ∧
      ∀ depth w', Relation.ReflTransGen (Venture (Observers.Ventures (α := Int) depth)) w w' →
        (w'.handler ⟨0⟩).container? = some ⟨3⟩ := by
  intro silent obs w₀ xs w
  have hsilent : silent.Ventures 0 := ⟨fun _ _ _ => .refl, fun _ _ _ => .refl⟩
  have hobs : obs.Ventures 1 :=
    ⟨fun _ e w => .single (.request silent hsilent (.bind e.handler ⟨7⟩ .set) w),
      fun _ _ _ => .refl⟩
  have hw : Approached ⟨0⟩ xs w₀ w :=
    ((((((Approached.refl w₀).request 1 obs hobs (.rangeView ⟨0⟩ 2 1) rfl).request 1 obs hobs
      (.propose ⟨0⟩ .clear 5) rfl).request 1 obs hobs (.bind ⟨0⟩ ⟨2⟩ .empty) rfl).request 1 obs hobs
      (.bind ⟨0⟩ ⟨3⟩ .list) rfl).request 1 obs hobs (.propose ⟨0⟩ .clear 4) rfl).request 1 obs hobs
      (.bind ⟨0⟩ ⟨4⟩ .bag) rfl
  obtain ⟨hbinding, hkept, -, -, hwatch⟩ := bound_once (by decide) rfl hw
  have hagain := (hwatch (Sequence Int) obs ⟨[1]⟩).2.1 (by decide) rfl
  exact ⟨by decide +kernel, hbinding, congrArg Prod.fst hagain,
    fun depth w' hw' => (hkept ⟨⟨3⟩, .list⟩ depth w' rfl hw').1⟩

end Approached

end World

end WatchedContainers
