import WatchedContainers.Proofs.Errands
import WatchedContainers.Watched.Beats

/-!
# Revisions commute with what is done

* `Session.act_revised`: an action in a revised world does what it does in the world itself, if the
  calls of the hooks do.
* `Panel.Follows.beats`: **a revision of a run is a run in the revised world** without the requests
  that concern the hidden listener, if the listeners of one panel do what those of the other do.
-/

namespace WatchedContainers

variable {ρ σ C κ α : Type} [DecidableEq ρ]

/-! ### Worlds -/

namespace Handler

variable (v : Revision ρ σ) (h : Handler)

omit [DecidableEq ρ]

@[simp] theorem isBound_revised : (h.revised v).isBound = h.isBound := rfl

@[simp] theorem viewOffset_revised : (h.revised v).viewOffset = h.viewOffset := rfl

@[simp] theorem rootOf_revised (self : HandlerRef) : (h.revised v).rootOf self = h.rootOf self :=
  rfl

@[simp] theorem depthBelow_revised : World.depthBelow (h.revised v) = World.depthBelow h := by
  simp only [World.depthBelow, revised, v.maxViewDepth_config]

end Handler

namespace World

variable (v : Revision ρ σ) (w : World ρ σ) (h : HandlerRef)

/-- A handler is revised where it stands, unless there is none. -/
theorem handler_revised_cases :
    (w.revised v).handler h = (w.handler h).revised v ∨
      w.handler h = .missing ∧ (w.revised v).handler h = .missing := by
  by_cases hlt : h.index < w.handlers.size
  · left
    simp [handler, revised, Array.getD_eq_getD_getElem?, Array.getElem?_eq_getElem hlt]
  · right
    have hle : w.handlers.size ≤ h.index := Nat.le_of_not_lt hlt
    simp [handler, revised, Array.getD_eq_getD_getElem?, Array.getElem?_eq_none hle]

@[simp] theorem role_revised : ((w.revised v).handler h).role = (w.handler h).role := by
  rcases w.handler_revised_cases v h with heq | ⟨heq, heq'⟩
  · rw [heq]
    rfl
  · rw [heq, heq']

@[simp] theorem binding_revised : ((w.revised v).handler h).binding = (w.handler h).binding := by
  rcases w.handler_revised_cases v h with heq | ⟨heq, heq'⟩
  · rw [heq]
    rfl
  · rw [heq, heq']

@[simp] theorem preSize_revised : ((w.revised v).handler h).preSize = (w.handler h).preSize := by
  rcases w.handler_revised_cases v h with heq | ⟨heq, heq'⟩
  · rw [heq]
    rfl
  · rw [heq, heq']

@[simp] theorem isLive_revised : (w.revised v).isLive h = w.isLive h := by
  rcases w.handler_revised_cases v h with heq | ⟨heq, heq'⟩
  · rw [isLive, heq]
    rfl
  · rw [isLive, isLive, heq, heq']

@[simp] theorem root?_revised : (w.revised v).root? h = w.root? h := by
  simp only [root?, Handler.isRoot_congr (w.role_revised v h),
    Handler.rootOf_congr (w.role_revised v h), isLive_revised]

@[simp] theorem viewpoint?_revised (id : ContainerId) :
    viewpoint? ((w.revised v).handler h) id = viewpoint? (w.handler h) id := by
  simp only [viewpoint?, Handler.isRoot_congr (w.role_revised v h),
    Handler.viewOffset_congr (w.role_revised v h)]

theorem hooksAt_revised (ref : HooksRef) :
    (w.revised v).hooksAt ref = (w.hooksAt ref).revised v := by
  by_cases hlt : ref.index < w.hooks.size
  · simp [hooksAt, revised, Array.getD_eq_getD_getElem?, Array.getElem?_eq_getElem hlt]
  · have hle : w.hooks.size ≤ ref.index := Nat.le_of_not_lt hlt
    simp [hooksAt, revised, Array.getD_eq_getD_getElem?, Array.getElem?_eq_none hle,
      Hooks.revised]

theorem hooksOfRoot_revised (root : HandlerRef) :
    (w.revised v).hooksOfRoot root = (w.hooksOfRoot root).revised v := by
  unfold hooksOfRoot
  rw [role_revised]
  split
  · exact w.hooksAt_revised v _
  · rfl

theorem setHooks_revised (ref : HooksRef) (hooks : Hooks ρ) :
    (w.setHooks ref hooks).revised v = (w.revised v).setHooks ref (hooks.revised v) := by
  simp [setHooks, revised, Array.map_setIfInBounds]

theorem modifyHandler_revised {f : Handler → Handler}
    (hf : ∀ x, (f x).revised v = f (x.revised v)) :
    (w.modifyHandler h f).revised v = (w.revised v).modifyHandler h f := by
  have hhandlers : (w.handlers.modify h.index f).map (·.revised v) =
      (w.handlers.map (·.revised v)).modify h.index f := by
    refine Array.ext_getElem? fun i => ?_
    simp only [Array.getElem?_map, Array.getElem?_modify]
    split
    · simp only [Option.map_map, Function.comp_def, hf]
    · rfl
  simp only [modifyHandler, revised, hhandlers]

theorem addHandler_revised (x : Handler) :
    (w.revised v).addHandler (x.revised v) =
      ((w.addHandler x).1, (w.addHandler x).2.revised v) := by
  simp [addHandler, revised]

end World

/-! ### Handlers -/

structure Observers.Revises (v : Revision ρ σ) (obs obs' : Observers ρ σ α) : Prop where
  trace : ∀ t x, v.outside (obs.trace t x) = obs'.trace t (v.outside x)
  note : ∀ c x, v.outside (obs.note c x) = obs'.note c (v.outside x)
  ask : ∀ root e (w : World ρ σ),
    (w.revised v).ask obs' root e = ((w.ask obs root e).1, (w.ask obs root e).2.revised v)
  tell : ∀ root e (w : World ρ σ), (w.revised v).tell obs' root e = (w.tell obs root e).revised v

namespace World

variable {v : Revision ρ σ} {obs obs' : Observers ρ σ α} (hv : obs.Revises v obs')
  (w : World ρ σ) (h : HandlerRef)

include hv

theorem emit_revised (t : Trace α) : (w.revised v).emit obs' t = (w.emit obs t).revised v := by
  simp only [emit, revised, hv.trace]

theorem collect_revised (calls : List Call) :
    (w.revised v).collect obs' calls = (w.collect obs calls).revised v := by
  have hfold : ∀ x, v.outside (calls.foldl (fun s c => obs.note c s) x) =
      calls.foldl (fun s c => obs'.note c s) (v.outside x) := by
    induction calls with
    | nil => exact fun _ => rfl
    | cons c rest ih =>
      intro x
      rw [List.foldl_cons, List.foldl_cons, ← hv.note, ih]
  simp only [collect, revised, hfold]

theorem bind_revised (id : ContainerId) (caps : Capabilities) :
    (w.revised v).bind obs' h id caps =
      ((w.bind obs h id caps).1, (w.bind obs h id caps).2.revised v) := by
  unfold bind
  rw [Handler.isBound_congr (w.binding_revised v h), Handler.isView,
    Handler.isRoot_congr (w.role_revised v h), Handler.viewOffset_congr (w.role_revised v h),
    ← Handler.isView]
  split
  · rfl
  · split
    · rfl
    · rw [← emit_revised hv, modifyHandler_revised]
      exact fun _ => rfl

theorem reachRoot_revised :
    (w.revised v).reachRoot obs' h =
      ((w.reachRoot obs h).1, (w.reachRoot obs h).2.revised v) := by
  unfold reachRoot
  rw [root?_revised, Handler.viewOffset_congr (w.role_revised v h)]
  split
  · rfl
  · rw [emit_revised hv]

theorem reachHooks_revised :
    (w.revised v).reachHooks obs' h =
      ((w.reachHooks obs h).1, (w.reachHooks obs h).2.revised v) := by
  unfold reachHooks
  rw [reachRoot_revised hv]
  cases w.reachRoot obs h with
  | mk r w' =>
    cases r with
    | error e => rfl
    | ok root =>
      simp only [role_revised]
      split <;> rfl

theorem makeRangeView_revised (start stop : Nat) :
    (w.revised v).makeRangeView obs' h start stop =
      ((w.makeRangeView obs h start stop).1, (w.makeRangeView obs h start stop).2.revised v) := by
  rcases w.handler_revised_cases v h with heq | ⟨heq, heq'⟩
  · unfold makeRangeView
    simp only [heq, Handler.isBound_revised, Handler.viewOffset_revised, Handler.rootOf_revised,
      Handler.depthBelow_revised]
    split
    · rfl
    · split
      · rfl
      · cases depthBelow (w.handler h) with
        | error e => rfl
        | ok depth =>
          simp only [emit_revised hv]
          exact congrArg (fun x => (Except.ok x.1, x.2)) (addHandler_revised v _
            { role := .range ((w.handler h).rootOf h) (start + (w.handler h).viewOffset), depth
              config := (w.handler h).config })
  · have hbound : Handler.missing.isBound = false := rfl
    simp [makeRangeView, heq, heq', hbound]

theorem makeKeyedView_revised :
    (w.revised v).makeKeyedView obs' h =
      ((w.makeKeyedView obs h).1, (w.makeKeyedView obs h).2.revised v) := by
  rcases w.handler_revised_cases v h with heq | ⟨heq, heq'⟩
  · unfold makeKeyedView
    simp only [heq, Handler.isBound_revised, Handler.rootOf_revised, Handler.depthBelow_revised]
    split
    · rfl
    · cases depthBelow (w.handler h) with
      | error e => rfl
      | ok depth =>
        simp only [emit_revised hv]
        exact congrArg (fun x => (Except.ok x.1, x.2)) (addHandler_revised v _
          { role := .keyed ((w.handler h).rootOf h), depth, config := (w.handler h).config })
  · have hbound : Handler.missing.isBound = false := rfl
    simp [makeKeyedView, heq, heq', hbound]

theorem propose_revised (m : Modification α) (size : Nat) :
    (w.revised v).propose obs' h m size =
      ((w.propose obs h m size).1, (w.propose obs h m size).2.revised v) := by
  unfold propose
  rw [binding_revised, reachRoot_revised hv]
  cases (w.handler h).binding with
  | none => rfl
  | some b =>
    cases w.reachRoot obs h with
    | mk r w' =>
      cases r with
      | error e => rfl
      | ok root =>
        simp only [viewpoint?_revised, Handler.viewOffset_congr (w'.role_revised v h)]
        cases hb : (w'.handler root).binding with
        | none => simp only [proposeAtRoot, binding_revised, hb]
        | some b' =>
          rw [proposeAtRoot_of_binding hb, proposeAtRoot_of_binding (by rw [binding_revised, hb]),
            hv.ask]

theorem conclude_revised [ObjectIdentity α] (c : Completion α) (size : Nat) :
    (w.revised v).conclude obs' h c size =
      ((w.conclude obs h c size).1, (w.conclude obs h c size).2.revised v) := by
  unfold conclude
  cases c.absent? with
  | some kind => simp only [emit_revised hv]
  | none =>
    rw [binding_revised, reachRoot_revised hv]
    cases (w.handler h).binding with
    | none => rfl
    | some b =>
      cases w.reachRoot obs h with
      | mk r w' =>
        cases r with
        | error e => rfl
        | ok root =>
          simp only [viewpoint?_revised, Handler.viewOffset_congr (w'.role_revised v h)]
          cases hb : (w'.handler root).binding with
          | none => simp only [concludeAtRoot, binding_revised, hb]
          | some b' =>
            rw [concludeAtRoot_of_binding hb,
              concludeAtRoot_of_binding (by rw [binding_revised, hb]), preSize_revised, hv.tell]

end World

/-! ### Sessions -/

section Sessions

variable {v : Revision ρ σ} {obs obs' : Observers ρ σ α} (hv : obs.Revises v obs')
  (w : World ρ σ) (h : HandlerRef)

include hv

theorem SubList.openIn_revised [Collection C α] [Positional C α] (x : Segment C)
    (start stop : Nat) :
    SubList.openIn obs' h x start stop (w.revised v) =
      ((SubList.openIn obs h x start stop w).1,
        (SubList.openIn obs h x start stop w).2.revised v) := by
  unfold SubList.openIn
  split
  · rfl
  · rw [World.makeRangeView_revised hv]
    cases w.makeRangeView obs h start stop with
    | mk r w' =>
      cases r with
      | error e => rfl
      | ok ref =>
        have hfresh : (w'.revised v).freshId = (w'.freshId.1, w'.freshId.2.revised v) := rfl
        simp only [hfresh, World.bind_revised hv]
        cases w'.freshId.2.bind obs ref w'.freshId.1 (Collection.capabilities C) with
        | mk b w'' => cases b <;> rfl

theorem SortedView.openIn_revised [Collection C α] [Ord α] (x : SubRange C α) (b : Bounds α) :
    SortedView.openIn obs' h x b (w.revised v) =
      ((SortedView.openIn obs h x b w).1, (SortedView.openIn obs h x b w).2.revised v) := by
  unfold SortedView.openIn
  rw [World.makeKeyedView_revised hv]
  cases w.makeKeyedView obs h with
  | mk r w' =>
    cases r with
    | error e => rfl
    | ok ref =>
      have hfresh : (w'.revised v).freshId = (w'.freshId.1, w'.freshId.2.revised v) := rfl
      simp only [hfresh, World.bind_revised hv]
      cases w'.freshId.2.bind obs ref w'.freshId.1 (Collection.capabilities C) with
      | mk b w'' => cases b <;> rfl

theorem SortedView.openBetween_revised [Collection C α] [Ord α] (x : SubRange C α)
    (start stop : α) :
    SortedView.openBetween obs' h x start stop (w.revised v) =
      ((SortedView.openBetween obs h x start stop w).1,
        (SortedView.openBetween obs h x start stop w).2.revised v) := by
  unfold SortedView.openBetween
  split
  · rfl
  · exact SortedView.openIn_revised hv ..

theorem Session.open?_revised [Collection C α] [Traversal C κ α] (fam : Family C κ α)
    (o : Opening α) (s : Session C κ α) :
    s.open? obs' fam o (w.revised v) =
      (s.open? obs fam o w).map fun x => (x.1, x.2.revised v) := by
  unfold Session.open?
  cases o with
  | subList start stop =>
    cases fam with
    | list => simp only [Option.map_map, Function.comp_def, SubList.openIn_revised hv]
    | plain | bag | buffer | sorted => rfl
  | range bounds =>
    cases fam with
    | sorted => simp only [Option.map_map, Function.comp_def, SortedView.openIn_revised hv]
    | plain | list | bag | buffer => rfl
  | subSet start stop =>
    cases fam with
    | sorted => simp only [Option.map_map, Function.comp_def, SortedView.openBetween_revised hv]
    | plain | list | bag | buffer => rfl
  | iteration => simp only [Option.map_map, Function.comp_def]
  | listIterator =>
    cases fam with
    | list => simp only [Option.map_map, Function.comp_def]
    | plain | bag | buffer | sorted => rfl

theorem perform_revised {S β : Type} [ObjectIdentity α] [Noting S] (operation : Operation S α β)
    (s : S) :
    perform obs' h operation s (w.revised v) =
      ((perform obs h operation s w).1, (perform obs h operation s w).2.1,
        (perform obs h operation s w).2.2.revised v) := by
  unfold perform
  cases operation s with
  | error e => rfl
  | ok plan =>
    simp only [World.propose_revised hv]
    cases w.propose obs h plan.proposal plan.size with
    | mk r w' =>
      cases r with
      | error e => rfl
      | ok answer =>
        cases answer with
        | false => rfl
        | true =>
          simp only [World.collect_revised hv]
          cases plan.commit.report with
          | none => rfl
          | some x =>
            simp only [World.conclude_revised hv]
            cases World.conclude obs h x.1 x.2 _ with
            | mk r w'' => cases r <;> rfl

/-- **An action in a revised world** does what it does in the world itself. -/
theorem Session.act_revised [Collection C α] [Traversal C κ α] [BEq α] [Noting C]
    [ObjectIdentity α] (fam : Family C κ α) (a : Action α) (s : Session C κ α) :
    s.act obs' fam a (w.revised v) =
      (s.act obs fam a w).map fun (r, s', w') => (r, s', w'.revised v) := by
  cases a with
  | command command =>
    simp only [Session.act, Option.map_map, Function.comp_def, perform_revised hv]
  | query q => simp only [Session.act, Option.map_map, Function.comp_def]
  | move m => simp only [Session.act, Option.map_map, Function.comp_def]
  | openFrame o =>
    simp only [Session.act, Session.open?_revised hv, Option.map_map]
    refine congrArg (fun f => Option.map f (s.open? obs fam o w)) (funext fun x => ?_)
    obtain ⟨r, w'⟩ := x
    cases r <;> rfl
  | close =>
    unfold Session.act
    cases s.frames <;> rfl

end Sessions

/-! ### Lists of listeners -/

section Lists

variable (hidden : Option ρ) (l : ρ) (rs : List (Registration ρ))

namespace Registration

theorem visible_append (rs' : List (Registration ρ)) :
    visible hidden (rs ++ rs') = visible hidden rs ++ visible hidden rs' := List.filter_append ..

theorem visible_without :
    visible hidden (without l rs) = without l (visible hidden rs) := by
  simp only [visible, without, List.filter_filter, Bool.and_comm]

theorem visible_self_without : visible (some l) (without l rs) = visible (some l) rs := by
  simp only [visible, without, List.filter_filter]
  exact List.filter_congr fun r _ => by simp

theorem any_visible (hl : some l ≠ hidden) :
    ((visible hidden rs).any fun r => r.listener = l) = rs.any fun r => r.listener = l := by
  rw [visible, List.any_filter]
  refine congrArg rs.any (funext fun r => ?_)
  by_cases hr : r.listener = l
  · simp [hr, hl]
  · simp [hr]

end Registration

namespace ManagedHooks

variable (v : Revision ρ σ) (s : ManagedHooks ρ) (p : Phase)

theorem registered_revised :
    (s.revised v).registered p = Registration.visible v.hidden (s.registered p) := by
  cases p <;> rfl

theorem withRegistered_revised :
    (s.withRegistered p rs).revised v =
      (s.revised v).withRegistered p (Registration.visible v.hidden rs) := by
  cases p <;> rfl

omit [DecidableEq ρ] in
theorem withRegistered_registered : s.withRegistered p (s.registered p) = s := by
  cases p <;> rfl

end ManagedHooks

end Lists

/-! ### Requests -/

namespace World

section Managed

variable {v : Revision ρ σ} {obs obs' : Observers ρ σ α} (hv : obs.Revises v obs')
  (w : World ρ σ) (h : HandlerRef) {β : Type} (operation : String)
  {f f' : HooksRef → ManagedHooks ρ → World ρ σ → β × World ρ σ}

include hv

theorem onManagedHooks_revised
    (hf : ∀ ref s w, w.hooksAt ref = .managed s →
      f' ref (s.revised v) (w.revised v) = ((f ref s w).1, (f ref s w).2.revised v)) :
    (w.revised v).onManagedHooks obs' h operation f' =
      ((w.onManagedHooks obs h operation f).1,
        (w.onManagedHooks obs h operation f).2.revised v) := by
  unfold onManagedHooks
  rw [reachHooks_revised hv]
  cases w.reachHooks obs h with
  | mk r w' =>
    cases r with
    | error e => rfl
    | ok ref =>
      simp only [hooksAt_revised]
      cases hhooks : w'.hooksAt ref with
      | acceptAll => rfl
      | policy party =>
        by_cases hparty : some party = v.hidden
        · simp only [Hooks.revised, if_pos hparty]
        · simp only [Hooks.revised, if_neg hparty]
      | managed s => simp only [Hooks.revised, hf ref s w' hhooks]

end Managed

omit [DecidableEq ρ] in
theorem setHooks_hooksAt (w : World ρ σ) (ref : HooksRef) : w.setHooks ref (w.hooksAt ref) = w := by
  have hhooks : w.hooks.setIfInBounds ref.index (w.hooks.getD ref.index .acceptAll) = w.hooks := by
    refine Array.ext_getElem? fun i => ?_
    rw [Array.getElem?_setIfInBounds]
    split
    next heq =>
      subst heq
      split
      next hlt => simp [Array.getElem?_eq_getElem hlt]
      next hle => exact (Array.getElem?_eq_none (Nat.le_of_not_lt hle)).symm
    next => rfl
  simp only [setHooks, hooksAt, hhooks]

theorem setHooks_revised_of_visible {v : Revision ρ σ} (w : World ρ σ) {ref : HooksRef}
    {s : ManagedHooks ρ} {p : Phase} {rs : List (Registration ρ)}
    (hs : w.hooksAt ref = .managed s)
    (hrs : Registration.visible v.hidden rs = Registration.visible v.hidden (s.registered p)) :
    (w.setHooks ref (.managed (s.withRegistered p rs))).revised v = w.revised v := by
  have hsame : (Hooks.managed (s.withRegistered p rs)).revised v = (w.revised v).hooksAt ref := by
    rw [hooksAt_revised, hs, Hooks.revised, ManagedHooks.withRegistered_revised, hrs,
      ← ManagedHooks.registered_revised, ManagedHooks.withRegistered_registered, Hooks.revised]
  rw [setHooks_revised, hsame, setHooks_hooksAt]

/-! ### Requests to panels -/

section Requests

variable [ObjectIdentity α] {v : Revision ρ (List (Minute ρ α))} {panel bare : Panel ρ α}
  {depth : Nat} (w : MinutedWorld ρ α) (ref : HooksRef) (s : ManagedHooks ρ) (p : Phase) {l : ρ}
  (mask : Mask)

theorem emit_observers (panel : Panel ρ α) (depth : Nat) (t : Trace α) :
    w.emit (panel.observers depth) t = { w with outside := w.outside ++ Minute.ofTrace t } := by
  cases depth <;> rfl

theorem emit_of_ne (panel : Panel ρ α) (depth : Nat) {t : Trace α}
    (ht : ∀ e, t ≠ .dispatching e) : w.emit (panel.observers depth) t = w := by
  rw [emit_observers]
  cases t with
  | dispatching e => exact absurd rfl (ht e)
  | _ => simp [Minute.ofTrace]

theorem registerAt_observers (l : ρ) :
    w.registerAt (panel.observers depth) ref s p l mask =
      w.setHooks ref (.managed (s.withRegistered p (s.registered p ++ [⟨l, mask⟩]))) := by
  exact emit_of_ne _ panel depth (by simp)

theorem registerAt_revised (hl : some l ≠ v.hidden) :
    (w.revised v).registerAt (bare.observers depth) ref (s.revised v) p l mask =
      (w.registerAt (panel.observers depth) ref s p l mask).revised v := by
  have hvisible : Registration.visible v.hidden [⟨l, mask⟩] = [⟨l, mask⟩] := by
    simp [Registration.visible, hl]
  simp only [registerAt_observers, setHooks_revised, Hooks.revised,
    ManagedHooks.withRegistered_revised, ManagedHooks.registered_revised,
    Registration.visible_append, hvisible]

theorem registerAt_aside (hs : w.hooksAt ref = .managed s) (hl : some l = v.hidden) :
    (w.registerAt (panel.observers depth) ref s p l mask).revised v = w.revised v := by
  rw [registerAt_observers]
  exact setHooks_revised_of_visible w hs (by simp [Registration.visible, hl])

theorem subscribe_revised (hl : some l ≠ v.hidden) :
    (w.revised v).subscribe (bare.observers depth) ref p l =
      (w.subscribe (panel.observers depth) ref p l).revised v := by
  unfold subscribe
  rw [hooksAt_revised]
  cases w.hooksAt ref with
  | acceptAll => rfl
  | policy party =>
    by_cases hparty : some party = v.hidden
    · simp only [Hooks.revised, if_pos hparty]
    · simp only [Hooks.revised, if_neg hparty]
  | managed s =>
    simp only [Hooks.revised, ManagedHooks.revised, v.defaultMask_config]
    exact w.registerAt_revised ref s p _ hl

theorem subscribe_aside (hl : some l = v.hidden) :
    (w.subscribe (panel.observers depth) ref p l).revised v = w.revised v := by
  unfold subscribe
  cases hs : w.hooksAt ref with
  | acceptAll | policy => rfl
  | managed s => exact w.registerAt_aside ref s p _ hs hl

/-- What is done to managed hooks through a handler leaves the revised world as it is if it is done
to the hidden listener. -/
theorem onManagedHooks_aside {β : Type} (h : HandlerRef) (operation : String)
    {f : HooksRef → ManagedHooks ρ → MinutedWorld ρ α → β × MinutedWorld ρ α}
    (hf : ∀ ref s w, w.hooksAt ref = .managed s → (f ref s w).2.revised v = w.revised v) :
    (w.onManagedHooks (panel.observers depth) h operation f).2.revised v = w.revised v := by
  rcases w.onManagedHooks_cases (panel.observers depth) h operation f with
    heq | ⟨t, ht, heq⟩ | ⟨ref, s, hs, heq⟩
  · rw [heq]
  · rw [heq, emit_of_ne _ _ _ ht]
  · rw [heq, hf ref s w hs]

theorem addListener_aside (h : HandlerRef) (hl : some l = v.hidden) :
    (w.addListener (panel.observers depth) h p l mask).2.revised v = w.revised v :=
  w.onManagedHooks_aside h _ fun ref s w hs => w.registerAt_aside ref s p mask hs hl

theorem removeListener_aside (h : HandlerRef) (hl : some l = v.hidden) :
    (w.removeListener (panel.observers depth) h p l).2.revised v = w.revised v := by
  refine w.onManagedHooks_aside h _ fun ref s w hs => setHooks_revised_of_visible w hs ?_
  rw [← hl, Registration.visible_self_without]

theorem listeners_aside (h : HandlerRef) :
    (w.listeners (panel.observers depth) h p).2.revised v = w.revised v :=
  w.onManagedHooks_aside h _ fun _ _ _ _ => rfl

omit [ObjectIdentity α] in
theorem involves_eq_false {x : Request ρ α} (hx : x.involves v.hidden = false) :
    (∀ l, x.listener? = some l → some l ≠ v.hidden) ∧ (x.lists → v.hidden = none) := by
  cases hhidden : v.hidden with
  | none => simp
  | some guest =>
    simp only [Request.involves, hhidden, Option.isSome_some, Bool.true_and, Bool.or_eq_false_iff,
      decide_eq_false_iff_not] at hx
    refine ⟨fun l hl heq => hx.1 (hl.trans heq), fun hlists => ?_⟩
    rw [hx.2] at hlists
    simp at hlists

section Parallel

variable (hv : (panel.observers depth).Revises v (bare.observers depth)) (h : HandlerRef)

include hv

theorem addListener_revised (hl : some l ≠ v.hidden) :
    (w.revised v).addListener (bare.observers depth) h p l mask =
      ((w.addListener (panel.observers depth) h p l mask).1,
        (w.addListener (panel.observers depth) h p l mask).2.revised v) :=
  onManagedHooks_revised hv w h _ fun ref s w _ =>
    congrArg (Prod.mk ()) (w.registerAt_revised ref s p mask hl)

theorem removeListener_revised (hl : some l ≠ v.hidden) :
    (w.revised v).removeListener (bare.observers depth) h p l =
      ((w.removeListener (panel.observers depth) h p l).1,
        (w.removeListener (panel.observers depth) h p l).2.revised v) := by
  refine onManagedHooks_revised hv w h _ fun ref s w _ => ?_
  simp only [Registration.length_without, ManagedHooks.registered_revised, setHooks_revised,
    Registration.any_visible _ _ _ hl, Hooks.revised, ManagedHooks.withRegistered_revised,
    Registration.visible_without]

theorem listeners_revised (hnone : v.hidden = none) :
    (w.revised v).listeners (bare.observers depth) h p =
      ((w.listeners (panel.observers depth) h p).1,
        (w.listeners (panel.observers depth) h p).2.revised v) := by
  refine onManagedHooks_revised hv w h _ fun ref s w _ => ?_
  have hall : Registration.visible v.hidden (s.registered p) = s.registered p :=
    List.filter_eq_self.2 fun r _ => by simp [hnone]
  simp only [ManagedHooks.registered_revised, hall]

/-- **A request in a revised world** comes to what it comes to in the world itself. -/
theorem grant_revised {x : Request ρ α} (hx : x.involves v.hidden = false) :
    (w.revised v).grant (bare.observers depth) x =
      ((w.grant (panel.observers depth) x).1,
        (w.grant (panel.observers depth) x).2.revised v) := by
  obtain ⟨hl, hlists⟩ := involves_eq_false hx
  cases x with
  | register h p l mask => simp only [grant, w.addListener_revised p mask hv h (hl l rfl)]
  | subscribe ref p l =>
    exact congrArg (Prod.mk _) (w.subscribe_revised ref p (hl l rfl))
  | unregister h p l => simp only [grant, w.removeListener_revised p hv h (hl l rfl)]
  | list h p => simp only [grant, w.listeners_revised p hv h (hlists rfl)]
  | propose h m size => simp only [grant, propose_revised hv]
  | conclude h c size => simp only [grant, conclude_revised hv]
  | rangeView parent start stop => simp only [grant, makeRangeView_revised hv]
  | keyedView parent => simp only [grant, makeKeyedView_revised hv]
  | bind h id caps => simp only [grant, bind_revised hv]

end Parallel

/-- A request that involves the hidden listener leaves the revised world as it is. -/
theorem grant_aside {x : Request ρ α} (hx : x.involves v.hidden = true) :
    (w.grant (panel.observers depth) x).2.revised v = w.revised v := by
  simp only [Request.involves, Bool.and_eq_true, Bool.or_eq_true, decide_eq_true_eq] at hx
  obtain ⟨hsome, hinvolved⟩ := hx
  cases x with
  | register h p l mask =>
    have hl : some l = v.hidden := by simpa [Request.listener?, Request.lists] using hinvolved
    exact w.addListener_aside p mask h hl
  | subscribe ref p l =>
    have hl : some l = v.hidden := by simpa [Request.listener?, Request.lists] using hinvolved
    exact w.subscribe_aside ref p hl
  | unregister h p l =>
    have hl : some l = v.hidden := by simpa [Request.listener?, Request.lists] using hinvolved
    exact w.removeListener_aside p h hl
  | list h p => exact w.listeners_aside p h
  | propose | conclude | rangeView | keyedView | bind =>
    have hnone : none = v.hidden := by simpa [Request.listener?, Request.lists] using hinvolved
    simp [← hnone] at hsome

variable (hv : (panel.observers depth).Revises v (bare.observers depth))

include hv

/-- A conduct that exceeds another does in a world what that one does in the revised world. -/
theorem follow_revised {β : Type} {c c' : Conduct ρ α β} (hc : c.Exceeds v.hidden c') :
    (w.revised v).follow (bare.observers depth) c' =
      ((w.follow (panel.observers depth) c).1,
        (w.follow (panel.observers depth) c).2.revised v) := by
  induction hc generalizing w with
  | done b => rfl
  | call x next next' hx hnext ih => simp only [follow, w.grant_revised hv hx, ih]
  | aside x next c hx hnext ih =>
    rw [follow, ← ih _ (w.grant (panel.observers depth) x).2, w.grant_aside hx]

end Requests

end World

/-! ### Calls of hooks -/

section Calls

variable [ObjectIdentity α] {v : Revision ρ (List (Minute ρ α))} {panel bare : Panel ρ α}

theorem World.poised_observers (panel : Panel ρ α) (depth : Nat) (root : HandlerRef) (e : Event α)
    (w : MinutedWorld ρ α) :
    w.poised (panel.observers depth) root e =
      (w.modifyHandler root fun x => { x with preSize := e.preSize }).minute (.raised e) := by
  rw [poised, emit_observers]
  rfl

/-- It is enough to know what becomes of the minutes, and what the hooks do with an event that was
just raised. -/
theorem Panel.revises {depth : Nat}
    (hraised : ∀ (log : List (Minute ρ α)) e,
      v.outside (log ++ [.raised e]) = v.outside log ++ [.raised e])
    (hdecide : ∀ (hooks : Hooks ρ) e (w : MinutedWorld ρ α),
      (hooks.revised v).decide (bare.observers depth) e ((w.minute (.raised e)).revised v) =
        ((hooks.decide (panel.observers depth) e (w.minute (.raised e))).1,
          (hooks.decide (panel.observers depth) e (w.minute (.raised e))).2.revised v))
    (hnotify : ∀ (hooks : Hooks ρ) e (w : MinutedWorld ρ α),
      (hooks.revised v).notify (bare.observers depth) e (w.revised v) =
        (hooks.notify (panel.observers depth) e w).revised v) :
    (panel.observers depth).Revises v (bare.observers depth) := by
  have htrace : ∀ (t : Trace α) log,
      v.outside (log ++ Minute.ofTrace t) = v.outside log ++ Minute.ofTrace t := by
    intro t log
    cases t with
    | dispatching e => exact hraised log e
    | _ => simp [Minute.ofTrace]
  have hemit : ∀ (t : Trace α) (w : MinutedWorld ρ α),
      (w.revised v).emit (bare.observers depth) t =
        (w.emit (panel.observers depth) t).revised v := by
    intro t w
    simp only [World.emit_observers, World.revised, htrace]
  refine ⟨fun t x => ?_, fun c x => ?_, fun root e w => ?_, fun root e w => ?_⟩
  · cases depth <;> exact htrace t x
  · cases depth <;> rfl
  · have hpoised : (w.revised v).poised (bare.observers depth) root e =
        (w.poised (panel.observers depth) root e).revised v := by
      rw [World.poised, ← World.modifyHandler_revised, hemit]
      · rfl
      · exact fun _ => rfl
    have hasked := hdecide ((w.poised (panel.observers depth) root e).hooksOfRoot root) e
      (w.modifyHandler root fun x => { x with preSize := e.preSize })
    rw [← World.poised_observers] at hasked
    rw [World.ask, World.ask, hpoised, World.hooksOfRoot_revised, hasked]
    cases Hooks.decide (panel.observers depth) _ e _ with
    | mk b w' =>
      cases b with
      | true => rfl
      | false => simp only [hemit]
  · rw [World.tell, World.tell]
    simp only [hemit, World.hooksOfRoot_revised, hnotify]

omit [ObjectIdentity α] in
theorem Conduct.exceeds_none {β : Type} (c : Conduct ρ α β) : c.Exceeds none c := by
  induction c with
  | done b => exact .done b
  | call x next ih => exact .call x next next rfl ih

/-- Further down than the panel goes nobody is called. -/
theorem Panel.revises_zero
    (hraised : ∀ (log : List (Minute ρ α)) e,
      v.outside (log ++ [.raised e]) = v.outside log ++ [.raised e]) :
    (panel.observers 0).Revises v (bare.observers 0) := by
  have hconsult : ∀ (panel : Panel ρ α) shortCircuit e ls (w : MinutedWorld ρ α),
      consult (panel.observers 0) shortCircuit e ls w = (true, w) := by
    intro panel shortCircuit e ls
    induction ls with
    | nil => exact fun _ => rfl
    | cons l rest ih => exact fun w => ih w
  have hinform : ∀ (panel : Panel ρ α) e ls (w : MinutedWorld ρ α),
      inform (panel.observers 0) e ls w = w := by
    intro panel e ls
    induction ls with
    | nil => exact fun _ => rfl
    | cons l rest ih => exact fun w => ih w
  have hdeaf : ∀ (panel : Panel ρ α) (hooks : Hooks ρ) e (w : MinutedWorld ρ α),
      hooks.decide (panel.observers 0) e w = (true, w) ∧
        hooks.notify (panel.observers 0) e w = w := by
    intro panel hooks e w
    cases hooks with
    | acceptAll | policy => exact ⟨rfl, rfl⟩
    | managed s => exact ⟨hconsult .., hinform ..⟩
  refine Panel.revises hraised (fun hooks e w => ?_) (fun hooks e w => ?_)
  · rw [(hdeaf ..).1, (hdeaf ..).1]
  · rw [(hdeaf ..).2, (hdeaf ..).2]

end Calls

/-! ### Runs -/

namespace Panel

variable [ObjectIdentity α] [Collection C α] [Traversal C κ α] [BEq α] [Noting C]
  {v : Revision ρ (List (Minute ρ α))} {panel bare : Panel ρ α} {depth : Nat}
  (hv : (panel.observers depth).Revises v (bare.observers depth)) (fam : Family C κ α)

include hv

theorem take_revised {x : Happening ρ α} (hx : x.involves v.hidden = false) (s : Session C κ α)
    (w : MinutedWorld ρ α) :
    bare.take fam depth x s (w.revised v) =
      (panel.take fam depth x s w).map fun (r, s', w') => (r, s', w'.revised v) := by
  cases x with
  | action a => simp only [take, Session.act_revised hv, Option.map_map, Function.comp_def]
  | request x => simp only [take, w.grant_revised hv hx, Option.map_some]

/-- **A revision of a run is a run in the revised world**, without the requests that involve the
hidden listener. -/
theorem beats_revised (script : List (Happening ρ α)) (s : Session C κ α) (w : MinutedWorld ρ α) :
    bare.beats fam depth (script.filter fun x => !x.involves v.hidden) s (w.revised v) =
      ((panel.beats fam depth script s w).filter fun b => !b.happening.involves v.hidden).map
        (·.revised v) := by
  induction script generalizing s w with
  | nil => rfl
  | cons x rest ih =>
    cases hx : x.involves v.hidden with
    | false =>
      rw [List.filter_cons_of_pos (by simp [hx]), beats, beats, take_revised hv fam hx]
      cases panel.take fam depth x s w with
      | none => exact ih s w
      | some y =>
        obtain ⟨r, s', w'⟩ := y
        simp only [Option.map_some, ih]
        rw [List.filter_cons_of_pos (by simp [hx])]
        rfl
    | true =>
      obtain ⟨y, rfl⟩ : ∃ y, x = .request y := by
        cases x with
        | action a => simp [Happening.involves] at hx
        | request y => exact ⟨y, rfl⟩
      rw [List.filter_cons_of_neg (by simp [hx]), beats, take]
      simp only
      rw [List.filter_cons_of_neg (by simp [hx]), ← ih, w.grant_aside hx]

end Panel

end WatchedContainers
