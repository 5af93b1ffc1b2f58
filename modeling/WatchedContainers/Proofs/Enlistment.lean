import WatchedContainers.Proofs.Errands
import WatchedContainers.Proofs.Revision
import WatchedContainers.Watched.Guest

/-!
# How a guest stays registered

* `World.Proceeds`: the minutes grew, roots stay roots of the same hooks, and the guest stays
  registered as it was.
* `World.proceeds_follow`: so it is whatever somebody requests who raises no events and leaves the
  guest alone.
* `World.Enrols.enlists`: **who is registered for the first time** is registered once.
-/

namespace WatchedContainers

variable {ρ σ C κ α : Type} [DecidableEq ρ]

namespace World

/-- More minutes were taken, roots stay roots of the same hooks, and the guest stays registered. -/
structure Proceeds (guest : ρ) (news : List (Minute ρ α)) (w w' : MinutedWorld ρ α) : Prop where
  outside : w'.outside = w.outside ++ news
  size_le : w.handlers.size ≤ w'.handlers.size
  role : ∀ h : HandlerRef, h.index < w.handlers.size → (w'.handler h).role = (w.handler h).role
  enlists : ∀ ref p mask, w.Enlists guest ref p mask → w'.Enlists guest ref p mask

variable {w w' w'' : MinutedWorld ρ α} {guest : ρ} {news news' : List (Minute ρ α)}

namespace Proceeds

theorem refl (w : MinutedWorld ρ α) : Proceeds guest [] w w :=
  ⟨(List.append_nil _).symm, Nat.le_refl _, fun _ _ => rfl, fun _ _ _ h => h⟩

theorem trans (hw : Proceeds guest news w w') (hw' : Proceeds guest news' w' w'') :
    Proceeds guest (news ++ news') w w'' where
  outside := by rw [hw'.outside, hw.outside, List.append_assoc]
  size_le := Nat.le_trans hw.size_le hw'.size_le
  role h hlt := (hw'.role h (Nat.lt_of_lt_of_le hlt hw.size_le)).trans (hw.role h hlt)
  enlists ref p mask h := hw'.enlists ref p mask (hw.enlists ref p mask h)

theorem of_hooks (hhooks : w'.hooks = w.hooks) (houtside : w'.outside = w.outside ++ news)
    (hsize : w.handlers.size ≤ w'.handlers.size)
    (hrole : ∀ h : HandlerRef, h.index < w.handlers.size →
      (w'.handler h).role = (w.handler h).role) : Proceeds guest news w w' where
  outside := houtside
  size_le := hsize
  role := hrole
  enlists ref p mask h := by
    have hsame : ∀ ref, w'.hooksAt ref = w.hooksAt ref := by
      intro ref
      rw [hooksAt, hhooks, hooksAt]
    refine ⟨fun ref' => ?_, ?_, fun ref' s hs => ?_⟩
    · rw [hsame]
      exact h.policy ref'
    · rw [hsame]
      exact h.managed
    · rw [hsame] at hs
      exact h.registered ref' s hs

theorem minute (w : MinutedWorld ρ α) (m : Minute ρ α) : Proceeds guest [m] w (w.minute m) :=
  of_hooks rfl rfl (Nat.le_refl _) fun _ _ => rfl

theorem of_modifyHandler (w : MinutedWorld ρ α) (h : HandlerRef) {f : Handler → Handler}
    (hf : ∀ x, (f x).role = x.role) : Proceeds guest [] w (w.modifyHandler h f) := by
  refine of_hooks rfl (List.append_nil _).symm (by simp [modifyHandler]) fun x hlt => ?_
  rw [handler_modifyHandler w h x f hlt]
  split
  · exact hf _
  · rfl

theorem of_addHandler (w : MinutedWorld ρ α) (x : Handler) :
    Proceeds guest [] w (w.addHandler x).2 :=
  of_hooks rfl (List.append_nil _).symm (by simp [addHandler]) fun _ hlt => by
    rw [handler_addHandler w x hlt]

end Proceeds

omit [DecidableEq ρ] in
theorem hooksAt_setHooks_of_ne (w : World ρ σ) {ref ref' : HooksRef} (hne : ref' ≠ ref)
    (hooks : Hooks ρ) : (w.setHooks ref hooks).hooksAt ref' = w.hooksAt ref' := by
  obtain ⟨i⟩ := ref
  obtain ⟨k⟩ := ref'
  have hik : i ≠ k := fun heq => hne (congrArg HooksRef.mk heq.symm)
  simp [hooksAt, setHooks, Array.getD_eq_getD_getElem?, Array.getElem?_setIfInBounds_ne hik]

/-- A list is changed where the guest is not concerned. -/
theorem Proceeds.of_setHooks {ref : HooksRef} {s : ManagedHooks ρ} (hs : w.hooksAt ref = .managed s)
    (p : Phase) {rs : List (Registration ρ)}
    (hrs : (rs.filter fun r => r.listener = guest) =
      (s.registered p).filter fun r => r.listener = guest) :
    Proceeds guest [] w (w.setHooks ref (.managed (s.withRegistered p rs))) where
  outside := (List.append_nil _).symm
  size_le := Nat.le_refl _
  role _ _ := rfl
  enlists ref₀ p₀ mask h := by
    have hhooks := hooksAt_setHooks hs (.managed (s.withRegistered p rs))
    refine ⟨fun ref' => ?_, ?_, fun ref' s' hs' q => ?_⟩
    · by_cases heq : ref' = ref
      · rw [heq, hhooks]
        exact nofun
      · rw [hooksAt_setHooks_of_ne w heq]
        exact h.policy ref'
    · by_cases heq : ref₀ = ref
      · subst heq
        exact ⟨_, hhooks⟩
      · rw [hooksAt_setHooks_of_ne w heq]
        exact h.managed
    · by_cases heq : ref' = ref
      · subst heq
        rw [hhooks] at hs'
        obtain rfl := Hooks.managed.inj hs'
        rw [ManagedHooks.registered_withRegistered]
        split
        next hpq => rw [hrs, hpq, h.registered ref' s hs]
        next => exact h.registered ref' s hs q
      · rw [hooksAt_setHooks_of_ne w heq] at hs'
        exact h.registered ref' s' hs' q

/-- A root either calls the hooks where the guest is registered, or hooks that do not call the
guest. -/
theorem Enlists.hooksOfRoot {ref : HooksRef} {p : Phase} {mask : Mask}
    (hw : w.Enlists guest ref p mask) (root : HandlerRef) :
    (∃ s, (w.handler root).role = .root ref ∧ w.hooksOfRoot root = .managed s ∧
        w.hooksAt ref = .managed s ∧ ∀ q, ((s.registered q).filter fun r => r.listener = guest) =
          if q = p then [⟨guest, mask⟩] else []) ∨
      (w.handler root).role ≠ .root ref ∧ (w.hooksOfRoot root).Omits guest := by
  unfold World.hooksOfRoot
  cases hrole : (w.handler root).role with
  | range | keyed => exact .inr ⟨nofun, trivial⟩
  | root ref' =>
    simp only
    by_cases heq : ref' = ref
    · subst heq
      obtain ⟨s, hs⟩ := hw.managed
      exact .inl ⟨s, rfl, hs, hs, fun q => by simpa using hw.registered ref' s hs q⟩
    · refine .inr ⟨fun h => heq (Role.root.inj h), ?_⟩
      cases hs : w.hooksAt ref' with
      | acceptAll => trivial
      | policy party => exact fun h => hw.policy ref' (h ▸ hs)
      | managed s =>
        intro q r hr hl
        have hnone := hw.registered ref' s hs q
        rw [if_neg fun h => heq h.1] at hnone
        exact List.filter_eq_nil_iff.1 hnone r hr (by simpa using hl)

/-! ### Requests -/

section Requests

variable [ObjectIdentity α] {panel : Panel ρ α} {depth : Nat} (w)

theorem proceeds_registerAt {ref : HooksRef} {s : ManagedHooks ρ} (hs : w.hooksAt ref = .managed s)
    (p : Phase) {l : ρ} (hl : l ≠ guest) (mask : Mask) :
    Proceeds guest [] w (w.registerAt (panel.observers depth) ref s p l mask) := by
  rw [registerAt_observers]
  exact .of_setHooks hs p (by simp [List.filter_append, hl])

theorem proceeds_onManagedHooks {β : Type} (h : HandlerRef) (operation : String)
    {f : HooksRef → ManagedHooks ρ → MinutedWorld ρ α → β × MinutedWorld ρ α}
    (hf : ∀ ref s, w.hooksAt ref = .managed s → Proceeds guest [] w (f ref s w).2) :
    Proceeds guest [] w (w.onManagedHooks (panel.observers depth) h operation f).2 := by
  rcases onManagedHooks_cases (panel.observers depth) w h operation f with
    heq | ⟨t, ht, heq⟩ | ⟨ref, s, hs, heq⟩
  · rw [heq]
    exact .refl w
  · rw [heq, emit_of_ne _ _ _ ht]
    exact .refl w
  · rw [heq]
    exact hf ref s hs

theorem proceeds_addListener (h : HandlerRef) (p : Phase) {l : ρ} (hl : l ≠ guest) (mask : Mask) :
    Proceeds guest [] w (w.addListener (panel.observers depth) h p l mask).2 :=
  w.proceeds_onManagedHooks h _ fun _ _ hs => w.proceeds_registerAt hs p hl mask

theorem proceeds_removeListener (h : HandlerRef) (p : Phase) {l : ρ} (hl : l ≠ guest) :
    Proceeds guest [] w (w.removeListener (panel.observers depth) h p l).2 := by
  refine w.proceeds_onManagedHooks h _ fun ref s hs => .of_setHooks hs p ?_
  rw [Registration.without, List.filter_filter]
  refine List.filter_congr fun r _ => ?_
  by_cases hr : r.listener = guest
  · simp [hr, hl.symm]
  · simp [hr]

theorem proceeds_listeners (h : HandlerRef) (p : Phase) :
    Proceeds guest [] w (w.listeners (panel.observers depth) h p).2 :=
  w.proceeds_onManagedHooks h _ fun _ _ _ => .refl w

theorem proceeds_makeRangeView (h : HandlerRef) (start stop : Nat) :
    Proceeds guest [] w (w.makeRangeView (panel.observers depth) h start stop).2 := by
  unfold makeRangeView
  simp only
  split
  · exact .refl w
  · split
    · exact .refl w
    · cases depthBelow (w.handler h) with
      | error e => exact .refl w
      | ok d =>
        simp only [emit_of_ne w panel depth (t := .rangeViewMade ..) (by simp)]
        exact .of_addHandler w _

theorem proceeds_makeKeyedView (h : HandlerRef) :
    Proceeds guest [] w (w.makeKeyedView (panel.observers depth) h).2 := by
  unfold makeKeyedView
  simp only
  split
  · exact .refl w
  · cases depthBelow (w.handler h) with
    | error e => exact .refl w
    | ok d =>
      simp only [emit_of_ne w panel depth (t := .keyedViewMade ..) (by simp)]
      exact .of_addHandler w _

theorem proceeds_bind (h : HandlerRef) (id : ContainerId) (caps : Capabilities) :
    Proceeds guest [] w (w.bind (panel.observers depth) h id caps).2 := by
  unfold bind
  split
  · exact .refl w
  · split
    · exact .refl w
    · simp only [emit_of_ne _ panel depth (t := .handlerBound ..) (by simp)]
      exact .of_modifyHandler w h fun _ => rfl

/-- A request that raises nothing leaves the guest registered, unless it is about the guest. -/
theorem proceeds_grant {x : Request ρ α} (hraises : x.raises = false)
    (hx : x.listener? ≠ some guest) :
    Proceeds guest [] w (w.grant (panel.observers depth) x).2 := by
  cases x with
  | register h p l mask =>
    have hl : l ≠ guest := fun heq => hx (congrArg some heq)
    exact w.proceeds_addListener h p hl mask
  | subscribe ref p l =>
    have hl : l ≠ guest := fun heq => hx (congrArg some heq)
    change Proceeds guest [] w (w.subscribe (panel.observers depth) ref p l)
    unfold subscribe
    split
    next s hs => exact w.proceeds_registerAt hs p hl _
    next => exact .refl w
  | unregister h p l =>
    have hl : l ≠ guest := fun heq => hx (congrArg some heq)
    exact w.proceeds_removeListener h p hl
  | list h p => exact w.proceeds_listeners h p
  | propose | conclude => simp [Request.raises] at hraises
  | rangeView parent start stop => exact w.proceeds_makeRangeView parent start stop
  | keyedView parent => exact w.proceeds_makeKeyedView parent
  | bind h id caps => exact w.proceeds_bind h id caps

theorem proceeds_follow {β : Type} {c : Conduct ρ α β}
    (hc : c.Only fun x => x.raises = false ∧ x.listener? ≠ some guest) :
    Proceeds guest [] w (w.follow (panel.observers depth) c).2 := by
  induction hc generalizing w with
  | done b => exact .refl w
  | call x next hx hnext ih => exact (w.proceeds_grant hx.1 hx.2).trans (ih _ _)

end Requests

/-! ### Registration of the guest -/

section Registration

variable [ObjectIdentity α] {panel : Panel ρ α} {depth : Nat}

/-- A listener that no hooks call is registered once. -/
theorem Lacks.enlists_registerAt {ref : HooksRef} {s : ManagedHooks ρ} (hw : w.Lacks guest)
    (hs : w.hooksAt ref = .managed s) (p : Phase) (mask : Mask) :
    (w.registerAt (panel.observers depth) ref s p guest mask).Enlists guest ref p mask := by
  have hnone : ∀ ref' s', w.hooksAt ref' = .managed s' → ∀ q,
      ((s'.registered q).filter fun r => r.listener = guest) = [] := by
    intro ref' s' hs' q
    have homits := hw ref'
    rw [hs'] at homits
    exact List.filter_eq_nil_iff.2 fun r hr heq => homits q r hr (of_decide_eq_true heq)
  have hhooks := hooksAt_setHooks hs
    (.managed (s.withRegistered p (s.registered p ++ [⟨guest, mask⟩])))
  rw [registerAt_observers]
  refine ⟨fun ref' hpolicy => ?_, ⟨_, hhooks⟩, fun ref' s' hs' q => ?_⟩
  · by_cases heq : ref' = ref
    · rw [heq, hhooks] at hpolicy
      cases hpolicy
    · rw [hooksAt_setHooks_of_ne w heq] at hpolicy
      have homits := hw ref'
      rw [hpolicy] at homits
      exact homits rfl
  · by_cases heq : ref' = ref
    · subst heq
      rw [hhooks] at hs'
      obtain rfl := Hooks.managed.inj hs'
      rw [ManagedHooks.registered_withRegistered]
      by_cases hpq : p = q
      · simp [hpq, List.filter_append, hnone _ s hs]
      · simp [hpq, Ne.symm hpq, hnone _ s hs]
    · rw [hooksAt_setHooks_of_ne w heq] at hs'
      rw [hnone ref' s' hs' q, if_neg fun h => heq h.1]

/-- **Whoever is registered first** is registered once. -/
theorem Enrols.enlists {ref : HooksRef} {p : Phase} {mask : Mask} {x : Request ρ α}
    (hx : w.Enrols guest ref p mask x) (hw : w.Lacks guest) :
    (w.grant (panel.observers depth) x).2.Enlists guest ref p mask := by
  cases hx with
  | @register h root s hroot hrole hs mask =>
    have hgrant : (w.addListener (panel.observers depth) h p guest mask).2 =
        w.registerAt (panel.observers depth) ref s p guest mask := by
      simp only [addListener, onManagedHooks, reachHooks, reachRoot, hroot, hrole, hs]
    change (w.addListener (panel.observers depth) h p guest mask).2.Enlists guest ref p mask
    rw [hgrant]
    exact hw.enlists_registerAt hs p mask
  | subscribe hs =>
    change (w.subscribe (panel.observers depth) ref p guest).Enlists guest ref p _
    simp only [World.subscribe, hs]
    exact hw.enlists_registerAt hs p _

end Registration

end World

/-! ### Sessions -/

section Opening

variable [ObjectIdentity α] {panel : Panel ρ α} {guest : ρ} {depth : Nat} (w : MinutedWorld ρ α)
  (h : HandlerRef)

theorem World.proceeds_serve (caps : Capabilities) :
    Proceeds guest [] w
      (w.freshId.2.bind (panel.observers depth) h w.freshId.1 caps).2 := by
  have hfresh : Proceeds guest [] w w.freshId.2 :=
    .of_hooks rfl (List.append_nil _).symm (Nat.le_refl _) fun _ _ => rfl
  exact hfresh.trans (w.freshId.2.proceeds_bind h w.freshId.1 caps)

variable [Collection C α]

theorem SubList.proceeds_openIn [Positional C α] (x : Segment C) (start stop : Nat) :
    World.Proceeds guest [] w (SubList.openIn (panel.observers depth) h x start stop w).2 := by
  have hview : World.Proceeds guest [] w
      (w.makeRangeView (panel.observers depth) h start stop).2 :=
    w.proceeds_makeRangeView h start stop
  unfold SubList.openIn
  split
  · exact .refl w
  · cases hmade : w.makeRangeView (panel.observers depth) h start stop with
    | mk r w' =>
      rw [hmade] at hview
      cases r with
      | error e => exact hview
      | ok ref =>
        have hserve : World.Proceeds guest [] w (w'.freshId.2.bind (panel.observers depth) ref
            w'.freshId.1 (Collection.capabilities C)).2 :=
          hview.trans (w'.proceeds_serve ref (Collection.capabilities C))
        simp only
        split
        next heq => simpa only [heq] using hserve
        next heq => simpa only [heq] using hserve

theorem SortedView.proceeds_openIn [Ord α] (x : SubRange C α) (b : Bounds α) :
    World.Proceeds guest [] w (SortedView.openIn (panel.observers depth) h x b w).2 := by
  have hview : World.Proceeds guest [] w (w.makeKeyedView (panel.observers depth) h).2 :=
    w.proceeds_makeKeyedView h
  unfold SortedView.openIn
  cases hmade : w.makeKeyedView (panel.observers depth) h with
  | mk r w' =>
    rw [hmade] at hview
    cases r with
    | error e => exact hview
    | ok ref =>
      have hserve : World.Proceeds guest [] w (w'.freshId.2.bind (panel.observers depth) ref
          w'.freshId.1 (Collection.capabilities C)).2 :=
        hview.trans (w'.proceeds_serve ref (Collection.capabilities C))
      simp only
      split
      next heq => simpa only [heq] using hserve
      next heq => simpa only [heq] using hserve

theorem SortedView.proceeds_openBetween [Ord α] (x : SubRange C α) (start stop : α) :
    World.Proceeds guest [] w
      (SortedView.openBetween (panel.observers depth) h x start stop w).2 := by
  unfold SortedView.openBetween
  split
  · exact .refl w
  · exact SortedView.proceeds_openIn w h x _

theorem Session.proceeds_open? [Traversal C κ α] {fam : Family C κ α} {o : Opening α}
    {s : Session C κ α} {x : Except Error (Frame κ α) × MinutedWorld ρ α}
    (hx : s.open? (panel.observers depth) fam o w = some x) :
    World.Proceeds guest [] w x.2 := by
  unfold Session.open? at hx
  cases o with
  | subList start stop =>
    cases fam with
    | list =>
      obtain ⟨y, -, rfl⟩ := Option.map_eq_some_iff.1 hx
      exact SubList.proceeds_openIn w _ y start stop
    | plain | bag | buffer | sorted => simp at hx
  | range bounds =>
    cases fam with
    | sorted =>
      obtain ⟨y, -, rfl⟩ := Option.map_eq_some_iff.1 hx
      exact SortedView.proceeds_openIn w _ y bounds
    | plain | list | bag | buffer => simp at hx
  | subSet start stop =>
    cases fam with
    | sorted =>
      obtain ⟨y, -, rfl⟩ := Option.map_eq_some_iff.1 hx
      exact SortedView.proceeds_openBetween w _ y start stop
    | plain | list | bag | buffer => simp at hx
  | iteration =>
    obtain ⟨y, -, rfl⟩ := Option.map_eq_some_iff.1 hx
    exact .refl w
  | listIterator =>
    cases fam with
    | list =>
      obtain ⟨y, -, rfl⟩ := Option.map_eq_some_iff.1 hx
      exact .refl w
    | plain | bag | buffer | sorted => simp at hx

end Opening

end WatchedContainers
