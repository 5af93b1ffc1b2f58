import WatchedContainers.Handler.Descent
import WatchedContainers.Proofs.Dispatch

/-!
# Forwarding to the root

Views hand their events over to the root and not to the views between, so where a view starts is
added up once, when it is made, and never again.

* `HandlerTree.Sound`: every member of a tree finds the root, and its handler tells where it starts.
* `HandlerTree.Step.sound`: whatever happens to a tree while the root lives, it stays sound.
* `HandlerTree.Grows.forwards`: **calls at a member are calls of the root's hooks**, with the offset
  of its descent and the size given last, and its listeners are those of the root.
-/

namespace WatchedContainers

variable {ρ σ α : Type}

namespace World

variable {obs : Observers ρ σ α} {w w' : World ρ σ} {h root : HandlerRef} {observed : ContainerId}

/-! ### Views that are made -/

theorem eq_of_makeRangeView {start stop : Nat} {ref : HandlerRef}
    (hview : w.makeRangeView obs h start stop = (.ok ref, w')) :
    ∃ t x, x.role = .range ((w.handler h).rootOf h) (start + (w.handler h).viewOffset) ∧
      ref = ⟨w.handlers.size⟩ ∧ w' = ((w.emit obs t).addHandler x).2 := by
  unfold makeRangeView at hview
  simp only at hview
  split at hview
  · simp at hview
  · split at hview
    · simp at hview
    · cases hdepth : depthBelow (w.handler h) with
      | error e => simp [hdepth] at hview
      | ok depth =>
        rw [hdepth] at hview
        cases hview
        exact ⟨_, _, rfl, rfl, rfl⟩

theorem eq_of_makeKeyedView {ref : HandlerRef}
    (hview : w.makeKeyedView obs h = (.ok ref, w')) :
    ∃ t x, x.role = .keyed ((w.handler h).rootOf h) ∧ ref = ⟨w.handlers.size⟩ ∧
      w' = ((w.emit obs t).addHandler x).2 := by
  unfold makeKeyedView at hview
  simp only at hview
  split at hview
  · simp at hview
  · cases hdepth : depthBelow (w.handler h) with
    | error e => simp [hdepth] at hview
    | ok depth =>
      rw [hdepth] at hview
      cases hview
      exact ⟨_, _, rfl, rfl, rfl⟩

/-! ### Roots that are planted -/

theorem hosts_of_newRoot (w : World ρ σ) (obs : Observers ρ σ α) (hooks : Hooks ρ)
    (config : Config) (id : ContainerId) {caps : Capabilities} (hcaps : caps.isEmpty = false) :
    let w₁ := (w.newRoot hooks config).2
    let root := (w.newRoot hooks config).1
    (w₁.bind obs root id caps).2.Hosts root id ∧
      ((w₁.bind obs root id caps).2.handler root).preSize = 0 := by
  intro w₁ root
  have hself : w₁.handler root = { role := .root ⟨w.hooks.size⟩, config } :=
    handler_addHandler_self (w.addHooks hooks).2 _
  have hlt : root.index < w₁.handlers.size := by simp [root, w₁, newRoot, rootOver, addHandler]
  have hbind : (w₁.bind obs root id caps).2 =
      (w₁.modifyHandler root fun x => { x with binding := some ⟨id, caps⟩ }).emit obs
        (.handlerBound id caps (w₁.handler root).isView (w₁.handler root).viewOffset) := by
    unfold bind
    rw [hcaps, hself]
    rfl
  have hbound : (w₁.bind obs root id caps).2.handler root =
      { role := .root ⟨w.hooks.size⟩, config, binding := some ⟨id, caps⟩ } := by
    rw [hbind]
    change (w₁.modifyHandler root _).handler root = _
    rw [handler_modifyHandler _ _ _ _ hlt, if_pos rfl, hself]
  refine ⟨⟨?_, ?_, ?_⟩, ?_⟩
  · rw [hbound]
    rfl
  · rw [hbound]
    rfl
  · rw [isLive, hbound]
    rfl
  · rw [hbound]

/-! ### What spares the root -/

theorem bind_spares (hlt : root.index < w.handlers.size) (obs : Observers ρ σ α) (h : HandlerRef)
    (id : ContainerId) (caps : Capabilities) : Spares root w (w.bind obs h id caps).2 := by
  unfold bind
  split
  · exact .refl root w
  · split
    · exact .refl root w
    next hunbound =>
      have hbound : Spares root w
          (w.modifyHandler h fun x => { x with binding := some ⟨id, caps⟩ }) := by
        refine ⟨.of_modifyHandler w h (fun _ => rfl) (fun hb => absurd hb hunbound)
          fun _ => rfl, ?_⟩
        rw [handler_modifyHandler _ _ _ _ hlt]
        split <;> rfl
      exact hbound.trans (emit_spares ..)

theorem setHooks_spares {ref : HooksRef} {s : ManagedHooks ρ} (hs : w.hooksAt ref = .managed s)
    (hooks : Hooks ρ) : Spares root w (w.setHooks ref hooks) where
  size_le := Nat.le_refl _
  role _ _ := rfl
  binding _ _ := rfl
  policy r party hp := by
    obtain ⟨i⟩ := ref
    obtain ⟨k⟩ := r
    have hne : i ≠ k := by
      rintro rfl
      rw [hs] at hp
      simp at hp
    simp only [hooksAt, setHooks, Array.getD_eq_getD_getElem?] at hp ⊢
    rwa [Array.getElem?_setIfInBounds_ne hne]
  live hl := hl
  preSize := rfl

theorem onManagedHooks_spares {β : Type} {operation : String}
    {f : HooksRef → ManagedHooks ρ → World ρ σ → β × World ρ σ}
    (hf : ∀ ref s w, w.hooksAt ref = .managed s → Spares root w (f ref s w).2)
    (w : World ρ σ) (h : HandlerRef) : Spares root w (w.onManagedHooks obs h operation f).2 := by
  have hreach : Spares root w (w.reachRoot obs h).2 := by
    unfold reachRoot
    split
    · exact .refl root w
    · exact emit_spares ..
  unfold onManagedHooks reachHooks
  cases hr : w.reachRoot obs h with
  | mk r w' =>
    rw [hr] at hreach
    cases r with
    | error e => exact hreach
    | ok found =>
      simp only
      cases (w'.handler found).role with
      | range _ _ => exact hreach
      | keyed _ => exact hreach
      | root ref =>
        cases hs : w'.hooksAt ref with
        | acceptAll => simpa only [hs] using hreach
        | policy party => simpa only [hs] using hreach
        | managed s =>
          simp only [hs]
          exact hreach.trans (hf ref s w' hs)

theorem addListener_spares (w : World ρ σ) (obs : Observers ρ σ α) (h : HandlerRef) (p : Phase)
    (l : ρ) (mask : Mask) : Spares root w (w.addListener obs h p l mask).2 :=
  onManagedHooks_spares (fun _ _ _ hs => (setHooks_spares hs _).trans (emit_spares ..)) w h

theorem removeListener_spares [DecidableEq ρ] (w : World ρ σ) (obs : Observers ρ σ α)
    (h : HandlerRef) (p : Phase) (l : ρ) : Spares root w (w.removeListener obs h p l).2 :=
  onManagedHooks_spares (fun _ _ _ hs => setHooks_spares hs _) w h

/-! ### Handlers that reach their root -/

theorem container?_of_propose {m : Modification α} {size : Nat} {answer : Bool}
    (h' : w.propose obs h m size = (.ok answer, w')) :
    ∃ id, (w.handler h).container? = some id := by
  unfold propose at h'
  cases hb : (w.handler h).binding with
  | none => simp [hb] at h'
  | some b => exact ⟨b.container, by simp [Handler.container?, hb]⟩

theorem container?_of_conclude [ObjectIdentity α] {c : Completion α} {size : Nat}
    (hc : c.absent? = none) (h' : w.conclude obs h c size = (.ok (), w')) :
    ∃ id, (w.handler h).container? = some id := by
  unfold conclude at h'
  rw [hc] at h'
  cases hb : (w.handler h).binding with
  | none => simp [hb] at h'
  | some b => exact ⟨b.container, by simp [Handler.container?, hb]⟩

theorem onManagedHooks_eq {β : Type} (operation : String)
    (f : HooksRef → ManagedHooks ρ → World ρ σ → β × World ρ σ) (hh : w.root? h = some root)
    (hroot : w.root? root = some root) :
    w.onManagedHooks obs h operation f = w.onManagedHooks obs root operation f := by
  unfold onManagedHooks reachHooks reachRoot
  rw [hh, hroot]

end World

/-! ### Members -/

namespace Member

variable {w w' : World ρ σ} {root : HandlerRef} {m : Member}

/-- The handler of the member is what its descent makes of it. -/
structure Placed (m : Member) (w : World ρ σ) (root : HandlerRef) : Prop where
  index_lt : m.handler.index < w.handlers.size
  role : match m.descent with
    | [] => m.handler = root
    | .range _ :: _ => (w.handler m.handler).role = .range root m.offset
    | .keyed :: _ => (w.handler m.handler).role = .keyed root

namespace Placed

theorem of_keeps (hp : m.Placed w root) (hk : World.Keeps root w w') : m.Placed w' root where
  index_lt := Nat.lt_of_lt_of_le hp.index_lt hk.size_le
  role := by
    have hrole := hp.role
    rw [hk.role m.handler hp.index_lt]
    exact hrole

section Hosted

variable {observed : ContainerId} (hp : m.Placed w root) (hw : w.Hosts root observed)

include hp hw

theorem isRoot_iff : (w.handler m.handler).isRoot ↔ m.descent = [] := by
  have hrole := hp.role
  obtain ⟨h, descent⟩ := m
  cases descent with
  | nil =>
    obtain rfl : h = root := hrole
    exact ⟨fun _ => rfl, fun _ => hw.isRoot⟩
  | cons link above =>
    cases link <;> simp_all [Handler.isRoot]

theorem rootOf_eq : (w.handler m.handler).rootOf m.handler = root := by
  have hrole := hp.role
  obtain ⟨h, descent⟩ := m
  cases descent with
  | nil =>
    obtain rfl : h = root := hrole
    exact Handler.rootOf_of_isRoot hw.isRoot h
  | cons link above =>
    cases link <;> simp_all [Handler.rootOf]

theorem viewOffset_eq : (w.handler m.handler).viewOffset = m.offset := by
  have hrole := hp.role
  obtain ⟨h, descent⟩ := m
  cases descent with
  | nil =>
    obtain rfl : h = root := hrole
    exact Handler.viewOffset_of_isRoot hw.isRoot
  | cons link above =>
    cases link <;> simp_all [Handler.viewOffset, offset, Link.offset]

theorem root?_eq : w.root? m.handler = some root := by
  unfold World.root?
  rw [hp.rootOf_eq hw, hw.live, if_pos rfl]
  split
  next hroot =>
    have hself := Handler.rootOf_of_isRoot hroot m.handler
    rw [← hself, hp.rootOf_eq hw]
  next => rfl

/-- A bound member is seated at the root, in its own name unless it is the root. -/
theorem seated {id : ContainerId} (hid : (w.handler m.handler).container? = some id) :
    w.Seated m.handler ⟨root, observed, m.view? id⟩ where
  hosts := hw
  reaches := hp.root?_eq hw
  seen := by
    refine ⟨id, hid, ?_⟩
    unfold World.viewpoint? view?
    simp only [hp.isRoot_iff hw, hp.viewOffset_eq hw]

end Hosted

end Placed

theorem offset_seat (m : Member) (root : HandlerRef) (observed id : ContainerId) :
    (Seat.mk root observed (m.view? id)).offset = m.offset := by
  unfold Seat.offset view?
  split
  next h => rw [offset, h]; rfl
  next => rfl

end Member

/-! ### Trees -/

namespace HandlerTree

variable {obs : Observers ρ σ α} {root : HandlerRef} {observed : ContainerId}
  {t t' : HandlerTree ρ σ} {w : World ρ σ}

/-- The root is in its place and so are the views, and the root remembers the size given last. -/
structure Sound (t : HandlerTree ρ σ) (root : HandlerRef) (observed : ContainerId) : Prop where
  hosts : t.world.Hosts root observed
  preSize : (t.world.handler root).preSize = t.lastSize
  placed : ∀ m ∈ t.members, m.Placed t.world root

namespace Sound

theorem sapling (hw : w.Hosts root observed) (hsize : (w.handler root).preSize = 0) :
    (HandlerTree.sapling root w).Sound root observed where
  hosts := hw
  preSize := hsize
  placed m hm := by
    obtain rfl := List.mem_singleton.1 hm
    exact ⟨World.index_lt_of_isLive hw.live, rfl⟩

theorem of_keeps (ht : t.Sound root observed) {size : Nat} (hk : World.Keeps root t.world w)
    (hsize : (w.handler root).preSize = size) :
    ({ t with world := w, lastSize := size } : HandlerTree ρ σ).Sound root observed where
  hosts := ht.hosts.of_keeps hk
  preSize := hsize
  placed m hm := (ht.placed m hm).of_keeps hk

theorem of_spares (ht : t.Sound root observed) (hw : World.Spares root t.world w) :
    ({ t with world := w } : HandlerTree ρ σ).Sound root observed :=
  ht.of_keeps hw.toKeeps (hw.preSize.trans ht.preSize)

/-- A new view has its place below the member it was made of. -/
theorem graft (ht : t.Sound root observed) (tr : Trace α) (x : Handler) {m : Member}
    (hx : m.Placed ((t.world.emit obs tr).addHandler x).2 root) :
    (⟨((t.world.emit obs tr).addHandler x).2, m :: t.members, t.lastSize⟩ :
      HandlerTree ρ σ).Sound root observed := by
  have hlt : root.index < (t.world.emit obs tr).handlers.size :=
    World.index_lt_of_isLive ht.hosts.live
  have hgrown : World.Spares root t.world ((t.world.emit obs tr).addHandler x).2 :=
    (World.emit_spares t.world tr).trans (.of_addHandler hlt x)
  have hold := ht.of_spares hgrown
  exact ⟨hold.hosts, hold.preSize, List.forall_mem_cons.2 ⟨hx, hold.placed⟩⟩

end Sound

/-- **A tree stays sound** whatever happens to it. -/
theorem Step.sound [DecidableEq ρ] [ObjectIdentity α] (hd : obs.Discreet root)
    (ht : t.Sound root observed) (h : Step obs root t t') : t'.Sound root observed := by
  have hlt := World.index_lt_of_isLive ht.hosts.live
  cases h with
  | rangeView m start stop ref w hm hview =>
    obtain ⟨tr, x, hrole, rfl, rfl⟩ := World.eq_of_makeRangeView hview
    have hp := ht.placed m hm
    refine ht.graft tr x ⟨by simp [World.addHandler, World.emit], ?_⟩
    rw [hp.rootOf_eq ht.hosts, hp.viewOffset_eq ht.hosts] at hrole
    exact (congrArg Handler.role (World.handler_addHandler_self _ x)).trans hrole
  | keyedView m ref w hm hview =>
    obtain ⟨tr, x, hrole, rfl, rfl⟩ := World.eq_of_makeKeyedView hview
    have hp := ht.placed m hm
    refine ht.graft tr x ⟨by simp [World.addHandler, World.emit], ?_⟩
    rw [hp.rootOf_eq ht.hosts] at hrole
    exact (congrArg Handler.role (World.handler_addHandler_self _ x)).trans hrole
  | bind h id caps => exact ht.of_spares (World.bind_spares hlt obs h id caps)
  | propose m p size answer w hm hpropose =>
    obtain ⟨id, hid⟩ := World.container?_of_propose hpropose
    rw [((ht.placed m hm).seated ht.hosts hid).propose] at hpropose
    obtain ⟨-, rfl⟩ := Prod.mk.inj hpropose
    exact ht.of_keeps (World.ask_keeps hd.loyal ..) (World.preSize_ask hd hlt _)
  | conclude m c size w hm hconclude =>
    cases hc : c.absent? with
    | some kind =>
      simp only [World.conclude, hc] at hconclude
      obtain ⟨-, rfl⟩ := Prod.mk.inj hconclude
      exact ht.of_spares (World.emit_spares ..)
    | none =>
      obtain ⟨id, hid⟩ := World.container?_of_conclude hc hconclude
      rw [((ht.placed m hm).seated ht.hosts hid).conclude] at hconclude
      obtain ⟨-, rfl⟩ := Prod.mk.inj hconclude
      exact ht.of_spares (World.report_spares ⟨root, observed, m.view? id⟩ hd ..)
  | addListener h p l mask => exact ht.of_spares (World.addListener_spares ..)
  | removeListener h p l => exact ht.of_spares (World.removeListener_spares ..)
  | elsewhere w hw => exact ht.of_spares hw

theorem Grows.sound [DecidableEq ρ] [ObjectIdentity α] (hd : obs.Discreet root)
    (hw : w.Hosts root observed) (hsize : (w.handler root).preSize = 0)
    (ht : Grows obs root w t) : t.Sound root observed := by
  induction ht with
  | refl => exact .sapling hw hsize
  | tail _ hstep ih => exact hstep.sound hd ih

/-- **Calls at a member are calls at the root.**  Under discreet parties, at every moment of every
tree that grows from a bound root, a proposal at a bound member is one question to the root's hooks
and a conclusion is one message to them, or none for a removal that found nothing.  The events name
the root, and the member unless it is the root; positions are moved by the offset of its descent,
and the message repeats the size given with the last proposal in the whole tree.  Listeners are
registered, removed and listed at a member as they are at the root. -/
theorem Grows.forwards [DecidableEq ρ] [ObjectIdentity α] (hd : obs.Discreet root)
    (hw : w.Hosts root observed) (hsize : (w.handler root).preSize = 0)
    (ht : Grows obs root w t) {m : Member} (hm : m ∈ t.members) :
    (∀ id, (t.world.handler m.handler).container? = some id →
      (∀ p size, t.world.propose obs m.handler p size =
        let e := Event.before observed root (p.shift m.offset) (m.view? id) size
        (.ok (t.world.ask obs root e).1, (t.world.ask obs root e).2)) ∧
      ∀ c size, t.world.conclude obs m.handler c size = (.ok (),
        match c.absent? with
        | some kind => t.world.emit obs (.nothingRemoved kind)
        | none => t.world.tell obs root
            (.after observed root m.offset c (m.view? id) t.lastSize size))) ∧
      (∀ phase l mask, t.world.addListener obs m.handler phase l mask =
        t.world.addListener obs root phase l mask) ∧
      (∀ phase l, t.world.removeListener obs m.handler phase l =
        t.world.removeListener obs root phase l) ∧
      ∀ phase, t.world.listeners obs m.handler phase = t.world.listeners obs root phase := by
  have hs := ht.sound hd hw hsize
  have hp := hs.placed m hm
  have hroot : t.world.root? root = some root := by
    unfold World.root?
    rw [hs.hosts.isRoot, if_pos rfl]
  have hreach := hp.root?_eq hs.hosts
  refine ⟨fun id hid => ⟨fun p size => ?_, fun c size => ?_⟩,
    fun _ _ _ => World.onManagedHooks_eq _ _ hreach hroot,
    fun _ _ => World.onManagedHooks_eq _ _ hreach hroot,
    fun _ => World.onManagedHooks_eq _ _ hreach hroot⟩
  · rw [(hp.seated hs.hosts hid).propose, Seat.before, m.offset_seat]
  · have hconclude := (hp.seated hs.hosts hid).conclude obs c size
    rw [World.report, Seat.after, m.offset_seat, hs.preSize] at hconclude
    exact hconclude

/-- A removal is proposed at one view, and another concluded at a view of that view.  The message to
the root's hooks has the offset of both views, and the size of the proposal. -/
theorem Grows.forwards_nested :
    let obs : Observers Unit (List (Option Nat)) Int :=
      ⟨fun _ e w => (e.kind != .clear, { w with outside := w.outside ++ [e.index?] }),
        fun _ e w => { w with outside := w.outside ++ [e.index?] }, fun _ => id, fun _ => id⟩
    let caps := Capabilities.list
    let w : World Unit (List (Option Nat)) :=
      { nextId := 2
        handlers := #[{ role := .root ⟨0⟩, binding := some ⟨⟨1⟩, caps⟩ }]
        hooks := #[.policy ()]
        outside := [] }
    let w₁ := ((w.makeRangeView obs ⟨0⟩ 2 9).2.bind obs ⟨1⟩ ⟨2⟩ caps).2
    let w₂ := ((w₁.makeRangeView obs ⟨1⟩ 3 5).2.bind obs ⟨2⟩ ⟨3⟩ caps).2
    let w₃ := (w₂.propose obs ⟨1⟩ (.removeIndexed 0) 40).2
    let e := Event.after ⟨1⟩ ⟨0⟩ 5 (.removeIndexed 1 8) (some ⟨⟨3⟩, 5⟩) 40 39
    w₃.conclude obs ⟨2⟩ (.removeIndexed 1 8) 39 = (.ok (), w₃.tell obs ⟨0⟩ e) ∧
      (w₃.tell obs ⟨0⟩ e).outside = [some 2, some 6] := by
  intro obs caps w w₁ w₂ w₃ e
  have hd : obs.Discreet ⟨0⟩ := ⟨fun _ _ _ => .of_outside rfl rfl, fun _ _ _ => .of_outside rfl rfl⟩
  have hfirst : (w.makeRangeView obs ⟨0⟩ 2 9).1 = .ok ⟨1⟩ := rfl
  have hsecond : (w₁.makeRangeView obs ⟨1⟩ 3 5).1 = .ok ⟨2⟩ := rfl
  have hw : w.Hosts ⟨0⟩ ⟨1⟩ := ⟨rfl, rfl, rfl⟩
  have hsize : (w.handler ⟨0⟩).preSize = 0 := rfl
  have hbound₂ : (w₂.handler ⟨1⟩).container? = some ⟨2⟩ := by decide +kernel
  have hasked : (w₂.ask obs ⟨0⟩
      (.before ⟨1⟩ ⟨0⟩ (.removeIndexed 2) (some ⟨⟨2⟩, 2⟩) 40)).1 = true := by decide +kernel
  have hbound₃ : (w₃.handler ⟨2⟩).container? = some ⟨3⟩ := by decide +kernel
  have htold : (w₃.tell obs ⟨0⟩ e).outside = [some 2, some 6] := by decide +kernel
  have h₀ : Grows obs ⟨0⟩ w (sapling ⟨0⟩ w) := .refl
  have h₁ : Grows obs ⟨0⟩ w ⟨w₁, [⟨⟨1⟩, [.range 2]⟩, ⟨⟨0⟩, []⟩], 0⟩ :=
    (h₀.tail (.rangeView _ ⟨⟨0⟩, []⟩ 2 9 ⟨1⟩ _ List.mem_cons_self (Prod.ext hfirst rfl))).tail
      (.bind _ ⟨1⟩ ⟨2⟩ caps)
  have h₂ : Grows obs ⟨0⟩ w
      ⟨w₂, [⟨⟨2⟩, [.range 3, .range 2]⟩, ⟨⟨1⟩, [.range 2]⟩, ⟨⟨0⟩, []⟩], 0⟩ :=
    (h₁.tail (.rangeView _ ⟨⟨1⟩, [.range 2]⟩ 3 5 ⟨2⟩ _ List.mem_cons_self
      (Prod.ext hsecond rfl))).tail (.bind _ ⟨2⟩ ⟨3⟩ caps)
  have hw₃ : w₃ = (w₂.propose obs ⟨1⟩ (.removeIndexed 0) 40).2 := rfl
  -- from here on only the growth of the world matters
  clear_value w₃ w₂ w
  have hpropose := ((Grows.forwards hd hw hsize h₂
    (List.mem_cons_of_mem _ List.mem_cons_self)).1 ⟨2⟩ hbound₂).1 (.removeIndexed 0) 40
  have h₃ : Grows obs ⟨0⟩ w
      ⟨w₃, [⟨⟨2⟩, [.range 3, .range 2]⟩, ⟨⟨1⟩, [.range 2]⟩, ⟨⟨0⟩, []⟩], 40⟩ :=
    h₂.tail (.propose _ ⟨⟨1⟩, [.range 2]⟩ (.removeIndexed 0) 40 true w₃
      (List.mem_cons_of_mem _ List.mem_cons_self)
      (Prod.ext ((congrArg Prod.fst hpropose).trans (congrArg Except.ok hasked)) hw₃.symm))
  exact ⟨((Grows.forwards hd hw hsize h₃ List.mem_cons_self).1 ⟨3⟩ hbound₃).2
    (.removeIndexed 1 8) 39, htold⟩

end HandlerTree

end WatchedContainers
