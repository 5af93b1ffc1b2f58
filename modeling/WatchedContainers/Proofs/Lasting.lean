import WatchedContainers.Handler.Lasting
import WatchedContainers.Proofs.Errands
import WatchedContainers.Proofs.Reentrance

/-!
# What lasts

* `World.grant_induction`: what the parties leave alone, and what the few ways of changing a world
  leave alone, is left alone by every request.
* `Observers.Ventures.lawful`: **whatever parties ask for leads to later worlds**, however deep
  their calls are nested.
-/

namespace WatchedContainers

variable {ρ σ α : Type}

namespace World

variable {w w' w'' : World ρ σ} {h : HandlerRef}

/-! ### Later worlds -/

namespace Later

theorem refl (w : World ρ σ) : w.Later w :=
  ⟨Nat.le_refl _, Nat.le_refl _, fun _ _ => rfl, fun _ _ => rfl, fun _ _ => rfl, fun _ _ => rfl⟩

theorem trans (hw : w.Later w') (hw' : w'.Later w'') : w.Later w'' where
  nextId_le := Nat.le_trans hw.nextId_le hw'.nextId_le
  size_le := Nat.le_trans hw.size_le hw'.size_le
  role h hlt := (hw'.role h (Nat.lt_of_lt_of_le hlt hw.size_le)).trans (hw.role h hlt)
  depth h hlt := (hw'.depth h (Nat.lt_of_lt_of_le hlt hw.size_le)).trans (hw.depth h hlt)
  config h hlt := (hw'.config h (Nat.lt_of_lt_of_le hlt hw.size_le)).trans (hw.config h hlt)
  binding h hb := by
    have hb' : (w'.handler h).isBound := (Handler.isBound_congr (hw.binding h hb)).trans hb
    exact (hw'.binding h hb').trans (hw.binding h hb)

theorem isBound (hw : w.Later w') (hb : (w.handler h).isBound) : (w'.handler h).isBound :=
  (Handler.isBound_congr (hw.binding h hb)).trans hb

theorem of_handlers (hid : w.nextId ≤ w'.nextId) (hhandlers : w'.handlers = w.handlers) :
    w.Later w' := by
  have hh : ∀ h, w'.handler h = w.handler h := by
    intro h
    rw [handler, hhandlers, handler]
  exact ⟨hid, Nat.le_of_eq (congrArg Array.size hhandlers.symm), fun h _ => congrArg _ (hh h),
    fun h _ => congrArg _ (hh h), fun h _ => congrArg _ (hh h), fun h _ => congrArg _ (hh h)⟩

theorem of_modifyHandler (w : World ρ σ) (ref : HandlerRef) {f : Handler → Handler}
    (hrole : ∀ x, (f x).role = x.role) (hdepth : ∀ x, (f x).depth = x.depth)
    (hconfig : ∀ x, (f x).config = x.config)
    (hbinding : (w.handler ref).isBound → (f (w.handler ref)).binding = (w.handler ref).binding) :
    w.Later (w.modifyHandler ref f) where
  nextId_le := Nat.le_refl _
  size_le := by simp [modifyHandler]
  role h hlt := by
    rw [handler_modifyHandler _ _ _ _ hlt, apply_ite Handler.role, hrole, ite_self]
  depth h hlt := by
    rw [handler_modifyHandler _ _ _ _ hlt, apply_ite Handler.depth, hdepth, ite_self]
  config h hlt := by
    rw [handler_modifyHandler _ _ _ _ hlt, apply_ite Handler.config, hconfig, ite_self]
  binding h hb := by
    rw [handler_modifyHandler _ _ _ _ (index_lt_of_isBound hb)]
    split
    next heq =>
      subst heq
      exact hbinding hb
    next => rfl

theorem of_addHandler (w : World ρ σ) (x : Handler) : w.Later (w.addHandler x).2 where
  nextId_le := Nat.le_refl _
  size_le := by simp [addHandler]
  role h hlt := congrArg _ (handler_addHandler w x hlt)
  depth h hlt := congrArg _ (handler_addHandler w x hlt)
  config h hlt := congrArg _ (handler_addHandler w x hlt)
  binding h hb := congrArg _ (handler_addHandler w x (index_lt_of_isBound hb))

end Later

theorem later_emit (w : World ρ σ) (obs : Observers ρ σ α) (t : Trace α) :
    w.Later (w.emit obs t) :=
  .of_handlers (Nat.le_refl _) rfl

theorem later_withBinding (hb : (w.handler h).binding = none) (b : Binding) :
    w.Later (w.modifyHandler h fun x => { x with binding := some b }) :=
  .of_modifyHandler w h (fun _ => rfl) (fun _ => rfl) (fun _ => rfl)
    fun hbound => by simp [Handler.isBound, hb] at hbound

/-! ### Requests -/

theorem isBound_eq_false : (w.handler h).isBound = false ↔ (w.handler h).binding = none := by
  rw [Handler.isBound, Option.isSome_eq_false_iff, Option.isNone_iff_eq_none]

theorem bind_cases (obs : Observers ρ σ α) (w : World ρ σ) (h : HandlerRef) (id : ContainerId)
    (caps : Capabilities) :
    (w.bind obs h id caps).2 = w ∨ ∃ t, (w.handler h).binding = none ∧ (w.bind obs h id caps).2 =
      (w.modifyHandler h fun x => { x with binding := some ⟨id, caps⟩ }).emit obs t := by
  unfold bind
  split
  · exact .inl rfl
  · split
    · exact .inl rfl
    next hunbound =>
      exact .inr ⟨_, isBound_eq_false.1 (Bool.eq_false_iff.2 hunbound), rfl⟩

theorem makeRangeView_cases (obs : Observers ρ σ α) (w : World ρ σ) (h : HandlerRef)
    (start stop : Nat) :
    (w.makeRangeView obs h start stop).2 = w ∨ ∃ t x, x.binding = none ∧
      (w.makeRangeView obs h start stop).2 = ((w.emit obs t).addHandler x).2 := by
  simp only [makeRangeView]
  split
  · exact .inl rfl
  · split
    · exact .inl rfl
    · cases depthBelow (w.handler h) with
      | error e => exact .inl rfl
      | ok depth => exact .inr ⟨_, _, rfl, rfl⟩

theorem makeKeyedView_cases (obs : Observers ρ σ α) (w : World ρ σ) (h : HandlerRef) :
    (w.makeKeyedView obs h).2 = w ∨ ∃ t x, x.binding = none ∧
      (w.makeKeyedView obs h).2 = ((w.emit obs t).addHandler x).2 := by
  simp only [makeKeyedView]
  split
  · exact .inl rfl
  · cases depthBelow (w.handler h) with
    | error e => exact .inl rfl
    | ok depth => exact .inr ⟨_, _, rfl, rfl⟩

section Requests

variable {obs : Observers ρ σ α}

theorem later_remember (w : World ρ σ) (h : HandlerRef) (size : Nat) :
    w.Later (w.modifyHandler h fun x => { x with preSize := size }) :=
  .of_modifyHandler w h (fun _ => rfl) (fun _ => rfl) (fun _ => rfl) fun _ => rfl

theorem later_propose (ho : obs.Lawful) (w : World ρ σ) (h : HandlerRef) (m : Modification α)
    (size : Nat) : w.Later (w.propose obs h m size).2 :=
  propose_induction .refl .trans ho.decide (fun w t _ => w.later_emit obs t)
    (fun w found _ _ _ size => (w.later_remember found size).trans (later_emit ..)) w h m size

theorem later_conclude [ObjectIdentity α] (ho : obs.Lawful) (w : World ρ σ) (h : HandlerRef)
    (c : Completion α) (size : Nat) : w.Later (w.conclude obs h c size).2 :=
  conclude_induction .refl .trans ho.notify (fun w t _ => w.later_emit obs t) w h c size

variable [DecidableEq ρ] [ObjectIdentity α]

/-- What is left alone by the parties, by traces, by a size that is remembered, by the binding of a
handler, by a new handler and by a change of managed hooks is left alone by every request. -/
theorem grant_induction {R : World ρ σ → World ρ σ → Prop} (hrefl : ∀ w, R w w)
    (htrans : ∀ {w w' w''}, R w w' → R w' w'' → R w w'')
    (hdecide : ∀ party e w, R w (obs.decide party e w).2)
    (hnotify : ∀ party e w, R w (obs.notify party e w))
    (hemit : ∀ w t, R w (w.emit obs t))
    (hremember : ∀ w h size, R w (w.modifyHandler h fun x => { x with preSize := size }))
    (hbind : ∀ w h b, (w.handler h).binding = none →
      R w (w.modifyHandler h fun x => { x with binding := some b }))
    (hview : ∀ w x, x.binding = none → R w (w.addHandler x).2)
    (hhooks : ∀ w ref s s', w.hooksAt ref = .managed s → R w (w.setHooks ref (.managed s')))
    (x : Request ρ α) (w : World ρ σ) : R w (w.grant obs x).2 := by
  have hmanaged : ∀ {β : Type} (h : HandlerRef) (operation : String)
      (f : HooksRef → ManagedHooks ρ → World ρ σ → β × World ρ σ),
      (∀ ref s, w.hooksAt ref = .managed s → R w (f ref s w).2) →
        R w (w.onManagedHooks obs h operation f).2 := by
    intro β h operation f hf
    rcases onManagedHooks_cases obs w h operation f with heq | ⟨t, -, heq⟩ | ⟨ref, s, hs, heq⟩
    · rw [heq]
      exact hrefl w
    · rw [heq]
      exact hemit w t
    · rw [heq]
      exact hf ref s hs
  have hregister : ∀ (ref : HooksRef) (s : ManagedHooks ρ) (p : Phase) (l : ρ) (mask : Mask),
      w.hooksAt ref = .managed s → R w (w.registerAt obs ref s p l mask) :=
    fun ref s p l mask hs => htrans (hhooks w ref s _ hs) (hemit ..)
  have hmade : ∀ w' : World ρ σ, (w' = w ∨ ∃ t x, x.binding = none ∧
      w' = ((w.emit obs t).addHandler x).2) → R w w' := by
    rintro w' (rfl | ⟨t, x, hx, rfl⟩)
    · exact hrefl w'
    · exact htrans (hemit w t) (hview _ x hx)
  cases x with
  | register h p l mask =>
    have hadd : R w (w.addListener obs h p l mask).2 :=
      hmanaged h _ _ fun ref s hs => hregister ref s p l mask hs
    exact hadd
  | subscribe ref p l =>
    simp only [grant, subscribe]
    split
    next s hs => exact hregister ref s p l _ hs
    next => exact hrefl w
  | unregister h p l =>
    have hremove : R w (w.removeListener obs h p l).2 :=
      hmanaged h _ _ fun ref s hs => hhooks w ref s _ hs
    exact hremove
  | list h p =>
    have hlist : R w (w.listeners obs h p).2 := hmanaged h _ _ fun _ _ _ => hrefl w
    exact hlist
  | propose h m size =>
    exact propose_induction hrefl htrans hdecide (fun w t _ => hemit w t)
      (fun w found _ _ _ size => htrans (hremember w found size) (hemit ..)) w h m size
  | conclude h c size =>
    exact conclude_induction hrefl htrans hnotify (fun w t _ => hemit w t) w h c size
  | rangeView h start stop => exact hmade _ (makeRangeView_cases obs w h start stop)
  | keyedView h => exact hmade _ (makeKeyedView_cases obs w h)
  | bind h id caps =>
    rcases bind_cases obs w h id caps with heq | ⟨t, hb, heq⟩
    · simp only [grant, heq]
      exact hrefl w
    · simp only [grant, heq]
      exact htrans (hbind w h _ hb) (hemit ..)

theorem later_grant (ho : obs.Lawful) (x : Request ρ α) (w : World ρ σ) :
    w.Later (w.grant obs x).2 :=
  grant_induction .refl .trans ho.decide ho.notify (fun w t => w.later_emit obs t)
    later_remember (fun _ _ b hb => later_withBinding hb b) (fun w x _ => .of_addHandler w x)
    (fun _ _ _ _ _ => .of_handlers (Nat.le_refl _) rfl) x w

theorem Venture.later {inner : Observers ρ σ α → Prop} (hinner : ∀ obs, inner obs → obs.Lawful)
    (hv : Venture inner w w') : w.Later w' := by
  cases hv with
  | request obs hobs x _ => exact later_grant (hinner obs hobs) x w
  | elsewhere _ _ hlater _ => exact hlater

theorem later_of_ventures {inner : Observers ρ σ α → Prop}
    (hinner : ∀ obs, inner obs → obs.Lawful)
    (hv : Relation.ReflTransGen (Venture inner) w w') : w.Later w' := by
  induction hv with
  | refl => exact .refl w
  | tail _ hstep ih => exact ih.trans (hstep.later hinner)

end Requests

end World

/-- **Whatever parties ask for leads to later worlds**, however deep their calls are nested. -/
theorem Observers.Ventures.lawful [DecidableEq ρ] [ObjectIdentity α] {obs : Observers ρ σ α}
    {depth : Nat} (ho : obs.Ventures depth) : obs.Lawful := by
  have hby : ∀ {inner : Observers ρ σ α → Prop} {obs : Observers ρ σ α},
      (∀ obs, inner obs → obs.Lawful) → obs.VenturesBy (World.Venture inner) → obs.Lawful :=
    fun hinner hby => ⟨fun party e w => World.later_of_ventures hinner (hby.decide party e w),
      fun party e w => World.later_of_ventures hinner (hby.notify party e w)⟩
  induction depth generalizing obs with
  | zero => exact hby (fun _ hnone => hnone.elim) ho
  | succ depth ih => exact hby (fun _ hinner => ih hinner) ho

end WatchedContainers
