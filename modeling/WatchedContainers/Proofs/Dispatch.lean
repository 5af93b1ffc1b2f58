import WatchedContainers.Handler.Calls
import WatchedContainers.Watched.Plan

/-!
# Dispatch from a seat

A handler is seated at a root when it is bound and the root is bound and alive.  The seat says how
its events look: the root they are raised at, and the view they name.

* `Seated.propose`, `Seated.conclude`: **what is proposed or concluded at a seated handler is one
  call of the root's hooks**, whatever hooks they are; a removal that found nothing calls none.
* `Seated.of_keeps`: handlers stay seated while the parties are loyal.
* `Seated.perform`: **an operation fails its checks and calls nobody, or asks the root's hooks once
  and, if they agree, reports once.**
-/

namespace WatchedContainers

variable {ρ σ α : Type}

/-! ### Seats -/

/-- The root that events are raised at, the container it watches, and the view they name. -/
structure Seat where
  root : HandlerRef
  observed : ContainerId
  view : Option Viewpoint
deriving DecidableEq

namespace Seat

def offset (seat : Seat) : Nat := (seat.view.map (·.offset)).getD 0

def before (seat : Seat) (m : Modification α) (size : Nat) : Event α :=
  .before seat.observed seat.root (m.shift seat.offset) seat.view size

def after [ObjectIdentity α] (seat : Seat) (c : Completion α) (preSize postSize : Nat) : Event α :=
  .after seat.observed seat.root seat.offset c seat.view preSize postSize

end Seat

/-! ### Handlers -/

namespace Handler

variable {x y : Handler}

theorem isRoot_congr (h : x.role = y.role) : x.isRoot = y.isRoot := by
  unfold isRoot
  rw [h]

theorem viewOffset_congr (h : x.role = y.role) : x.viewOffset = y.viewOffset := by
  unfold viewOffset
  rw [h]

theorem rootOf_congr (h : x.role = y.role) (self : HandlerRef) : x.rootOf self = y.rootOf self := by
  unfold rootOf
  rw [h]

theorem isBound_congr (h : x.binding = y.binding) : x.isBound = y.isBound := by
  unfold isBound
  rw [h]

theorem container?_congr (h : x.binding = y.binding) : x.container? = y.container? := by
  unfold container?
  rw [h]

theorem rootOf_of_isRoot (h : x.isRoot) (self : HandlerRef) : x.rootOf self = self := by
  unfold isRoot at h
  unfold rootOf
  split at h
  next hrole => simp [hrole]
  next => simp at h

theorem viewOffset_of_isRoot (h : x.isRoot) : x.viewOffset = 0 := by
  unfold isRoot at h
  unfold viewOffset
  split at h
  next hrole => simp [hrole]
  next => simp at h

theorem binding_of_container? {id : ContainerId} (h : x.container? = some id) :
    ∃ b, x.binding = some b ∧ b.container = id := by
  cases hb : x.binding with
  | none => simp [container?, hb] at h
  | some b => exact ⟨b, rfl, by simpa [container?, hb] using h⟩

theorem isBound_of_container? {id : ContainerId} (h : x.container? = some id) : x.isBound := by
  obtain ⟨b, hb, -⟩ := binding_of_container? h
  simp [isBound, hb]

end Handler

namespace World

variable {w w' w'' : World ρ σ} {obs : Observers ρ σ α} {h root : HandlerRef} {seat : Seat}
  {observed : ContainerId}

theorem index_lt_of_isBound (hb : (w.handler h).isBound) : h.index < w.handlers.size := by
  refine Nat.lt_of_not_le fun hle => ?_
  simp [handler, Array.getD_eq_getD_getElem?, Array.getElem?_eq_none hle, Handler.missing,
    Handler.isBound] at hb

theorem index_lt_of_isLive (hlive : w.isLive h) : h.index < w.handlers.size := by
  refine Nat.lt_of_not_le fun hle => ?_
  simp [isLive, handler, Array.getD_eq_getD_getElem?, Array.getElem?_eq_none hle,
    Handler.missing] at hlive

theorem handler_modifyHandler (w : World ρ σ) (root h : HandlerRef) (f : Handler → Handler)
    (hlt : h.index < w.handlers.size) :
    (w.modifyHandler root f).handler h = if root = h then f (w.handler h) else w.handler h := by
  obtain ⟨i⟩ := root
  obtain ⟨k⟩ := h
  simp only [handler, modifyHandler, Array.getD_eq_getD_getElem?, Array.getElem?_modify,
    Array.getElem?_eq_getElem hlt, HandlerRef.mk.injEq]
  split <;> rfl

theorem handler_addHandler_self (w : World ρ σ) (x : Handler) :
    (w.addHandler x).2.handler (w.addHandler x).1 = x := by
  simp [handler, addHandler, Array.getD_eq_getD_getElem?]

theorem handler_addHandler (w : World ρ σ) (x : Handler) (hlt : h.index < w.handlers.size) :
    (w.addHandler x).2.handler h = w.handler h := by
  simp [handler, addHandler, Array.getD_eq_getD_getElem?, Array.getElem?_push_lt hlt,
    Array.getElem?_eq_getElem hlt]

@[simp] theorem collect_nil (obs : Observers ρ σ α) (w : World ρ σ) : w.collect obs [] = w := rfl

/-! ### What calls leave alone -/

namespace Keeps

theorem refl (root : HandlerRef) (w : World ρ σ) : Keeps root w w :=
  ⟨Nat.le_refl _, fun _ _ => rfl, fun _ _ => rfl, fun _ _ h => h, id⟩

theorem trans (hw : Keeps root w w') (hw' : Keeps root w' w'') : Keeps root w w'' where
  size_le := Nat.le_trans hw.size_le hw'.size_le
  role h hlt := (hw'.role h (Nat.lt_of_lt_of_le hlt hw.size_le)).trans (hw.role h hlt)
  binding h hb := by
    have hb' : (w'.handler h).isBound := (Handler.isBound_congr (hw.binding h hb)).trans hb
    exact (hw'.binding h hb').trans (hw.binding h hb)
  policy ref party hp := hw'.policy ref party (hw.policy ref party hp)
  live hlive := hw'.live (hw.live hlive)

theorem of_outside (hhandlers : w'.handlers = w.handlers) (hhooks : w'.hooks = w.hooks) :
    Keeps root w w' := by
  have hh : ∀ h, w'.handler h = w.handler h := by
    intro h
    rw [handler, hhandlers, handler]
  exact ⟨Nat.le_of_eq (congrArg Array.size hhandlers.symm), fun h _ => congrArg _ (hh h),
    fun h _ => congrArg _ (hh h), fun ref party hp => by rwa [hooksAt, hhooks],
    fun hlive => by rwa [isLive, hh]⟩

theorem of_modifyHandler (w : World ρ σ) (ref : HandlerRef) {f : Handler → Handler}
    (hrole : ∀ x, (f x).role = x.role)
    (hbinding : (w.handler ref).isBound → (f (w.handler ref)).binding = (w.handler ref).binding)
    (hlive : ∀ x, (f x).handles = x.handles) : Keeps root w (w.modifyHandler ref f) where
  size_le := by simp [modifyHandler]
  role h hlt := by
    rw [handler_modifyHandler _ _ _ _ hlt]
    split
    · exact hrole _
    · rfl
  binding h hb := by
    rw [handler_modifyHandler _ _ _ _ (index_lt_of_isBound hb)]
    split
    next heq =>
      subst heq
      exact hbinding hb
    next => rfl
  policy _ _ hp := hp
  live hl := by
    rw [isLive, handler_modifyHandler _ _ _ _ (index_lt_of_isLive hl)]
    split
    · rw [hlive]
      exact hl
    · exact hl

end Keeps

namespace Spares

theorem refl (root : HandlerRef) (w : World ρ σ) : Spares root w w := ⟨.refl root w, rfl⟩

theorem trans (hw : Spares root w w') (hw' : Spares root w' w'') : Spares root w w'' :=
  ⟨hw.toKeeps.trans hw'.toKeeps, hw'.preSize.trans hw.preSize⟩

theorem of_outside (hhandlers : w'.handlers = w.handlers) (hhooks : w'.hooks = w.hooks) :
    Spares root w w' :=
  ⟨.of_outside hhandlers hhooks, by rw [handler, hhandlers, handler]⟩

theorem of_addHandler (hlt : root.index < w.handlers.size) (x : Handler) :
    Spares root w (w.addHandler x).2 where
  size_le := by simp [addHandler]
  role h hlt := congrArg _ (handler_addHandler w x hlt)
  binding h hb := congrArg _ (handler_addHandler w x (index_lt_of_isBound hb))
  policy _ _ hp := hp
  live hl := by
    rw [isLive, handler_addHandler w x hlt]
    exact hl
  preSize := congrArg _ (handler_addHandler w x hlt)

end Spares

end World

/-! ### Loyal and discreet parties -/

/-- What every party leaves alone is left alone by a call of several. -/
theorem World.consult_induction {obs : Observers ρ σ α} {R : World ρ σ → World ρ σ → Prop}
    (hrefl : ∀ w, R w w) (htrans : ∀ {w w' w''}, R w w' → R w' w'' → R w w'')
    (hdecide : ∀ party e w, R w (obs.decide party e w).2) (e : Event α) (shortCircuit : Bool)
    (parties : List ρ) (w : World ρ σ) : R w (consult obs shortCircuit e parties w).2 := by
  induction parties generalizing shortCircuit w with
  | nil => exact hrefl w
  | cons l rest ih =>
    have hfirst := hdecide l e w
    unfold consult
    cases hl : obs.decide l e w with
    | mk b w' =>
      rw [hl] at hfirst
      cases b with
      | true => exact htrans hfirst (ih shortCircuit w')
      | false =>
        cases shortCircuit with
        | true => exact hfirst
        | false => exact htrans hfirst (ih false w')

theorem World.inform_induction {obs : Observers ρ σ α} {R : World ρ σ → World ρ σ → Prop}
    (hrefl : ∀ w, R w w) (htrans : ∀ {w w' w''}, R w w' → R w' w'' → R w w'')
    (hnotify : ∀ party e w, R w (obs.notify party e w)) (e : Event α) (parties : List ρ)
    (w : World ρ σ) : R w (inform obs e parties w) := by
  induction parties generalizing w with
  | nil => exact hrefl w
  | cons l rest ih => exact htrans (hnotify l e w) (ih _)

theorem Hooks.decide_induction {obs : Observers ρ σ α} {R : World ρ σ → World ρ σ → Prop}
    (hrefl : ∀ w, R w w) (htrans : ∀ {w w' w''}, R w w' → R w' w'' → R w w'')
    (hdecide : ∀ party e w, R w (obs.decide party e w).2) (hooks : Hooks ρ) (e : Event α)
    (w : World ρ σ) : R w (hooks.decide obs e w).2 := by
  cases hooks with
  | acceptAll => exact hrefl w
  | policy party => exact hdecide party e w
  | managed s => exact World.consult_induction hrefl htrans hdecide ..

theorem Hooks.notify_induction {obs : Observers ρ σ α} {R : World ρ σ → World ρ σ → Prop}
    (hrefl : ∀ w, R w w) (htrans : ∀ {w w' w''}, R w w' → R w' w'' → R w w'')
    (hnotify : ∀ party e w, R w (obs.notify party e w)) (hooks : Hooks ρ) (e : Event α)
    (w : World ρ σ) : R w (hooks.notify obs e w) := by
  cases hooks with
  | acceptAll => exact hrefl w
  | policy party => exact hnotify party e w
  | managed s => exact World.inform_induction hrefl htrans hnotify ..

namespace World

variable {w w' w'' : World ρ σ} {obs : Observers ρ σ α} {h root : HandlerRef} {seat : Seat}
  {observed : ContainerId}

theorem emit_spares (w : World ρ σ) (t : Trace α) : Spares root w (w.emit obs t) :=
  .of_outside rfl rfl

theorem collect_spares (w : World ρ σ) (obs : Observers ρ σ α) (calls : List Call) :
    Spares root w (w.collect obs calls) :=
  .of_outside rfl rfl

theorem keeps_remember (w : World ρ σ) (ref : HandlerRef) (size : Nat) :
    Keeps root w (w.modifyHandler ref fun x => { x with preSize := size }) :=
  .of_modifyHandler w ref (fun _ => rfl) (fun _ => rfl) fun _ => rfl

theorem poised_keeps (w : World ρ σ) (obs : Observers ρ σ α) (e : Event α) :
    Keeps root w (w.poised obs root e) :=
  (w.keeps_remember root e.preSize).trans (emit_spares _ _).toKeeps

theorem preSize_poised (hlt : root.index < w.handlers.size) (e : Event α) :
    ((w.poised obs root e).handler root).preSize = e.preSize := by
  change ((w.modifyHandler root _).handler root).preSize = e.preSize
  rw [handler_modifyHandler _ _ _ _ hlt, if_pos rfl]

/-- What every party leaves alone, and the trace of a veto too, is left alone from the moment the
hooks are asked. -/
theorem ask_induction {R : World ρ σ → World ρ σ → Prop} (hrefl : ∀ w, R w w)
    (htrans : ∀ {w w' w''}, R w w' → R w' w'' → R w w'')
    (hdecide : ∀ party e w, R w (obs.decide party e w).2) (w : World ρ σ) (e : Event α)
    (hveto : ∀ w, R w (w.emit obs (.vetoed e.kind e.observed))) :
    R (w.poised obs root e) (w.ask obs root e).2 := by
  have hhooks := Hooks.decide_induction hrefl htrans hdecide
    ((w.poised obs root e).hooksOfRoot root) e (w.poised obs root e)
  unfold ask
  cases hb : ((w.poised obs root e).hooksOfRoot root).decide obs e (w.poised obs root e) with
  | mk b w' =>
    rw [hb] at hhooks
    cases b with
    | true => exact hhooks
    | false => exact htrans hhooks (hveto _)

theorem ask_keeps (hl : obs.Loyal root) (w : World ρ σ) (e : Event α) :
    Keeps root w (w.ask obs root e).2 :=
  (w.poised_keeps obs e).trans
    (ask_induction (.refl root) .trans hl.decide w e fun w => (w.emit_spares _).toKeeps)

/-- After discreet parties were asked, the root remembers the size it asked about. -/
theorem preSize_ask (hd : obs.Discreet root) (hlt : root.index < w.handlers.size) (e : Event α) :
    ((w.ask obs root e).2.handler root).preSize = e.preSize :=
  (ask_induction (.refl root) .trans hd.decide w e fun w => w.emit_spares _).preSize.trans
    (preSize_poised hlt e)

theorem tell_induction {R : World ρ σ → World ρ σ → Prop} (hrefl : ∀ w, R w w)
    (htrans : ∀ {w w' w''}, R w w' → R w' w'' → R w w'')
    (hnotify : ∀ party e w, R w (obs.notify party e w)) (w : World ρ σ) (e : Event α)
    (hemit : R w (w.emit obs (.dispatching e))) : R w (w.tell obs root e) :=
  htrans hemit (Hooks.notify_induction hrefl htrans hnotify ..)

theorem tell_keeps (hl : obs.Loyal root) (w : World ρ σ) (e : Event α) :
    Keeps root w (w.tell obs root e) :=
  tell_induction (.refl root) .trans hl.notify w e (w.emit_spares _).toKeeps

theorem tell_spares (hd : obs.Discreet root) (w : World ρ σ) (e : Event α) :
    Spares root w (w.tell obs root e) :=
  tell_induction (.refl root) .trans hd.notify w e (w.emit_spares _)

/-! ### Seated handlers -/

/-- The root handler is alive and watches the container `observed`. -/
structure Hosts (w : World ρ σ) (root : HandlerRef) (observed : ContainerId) : Prop where
  isRoot : (w.handler root).isRoot
  bound : (w.handler root).container? = some observed
  live : w.isLive root

/-- The handler `h` raises its events at the root of the seat, in the name of the seat's view. -/
structure Seated (w : World ρ σ) (h : HandlerRef) (seat : Seat) : Prop where
  hosts : w.Hosts seat.root seat.observed
  reaches : w.root? h = some seat.root
  seen : ∃ id, (w.handler h).container? = some id ∧ viewpoint? (w.handler h) id = seat.view

theorem Hosts.of_keeps (hw : w.Hosts root observed) (hk : Keeps root w w') :
    w'.Hosts root observed where
  isRoot := (Handler.isRoot_congr (hk.role root (index_lt_of_isLive hw.live))).trans hw.isRoot
  bound := (Handler.container?_congr
    (hk.binding root (Handler.isBound_of_container? hw.bound))).trans hw.bound
  live := hk.live hw.live

theorem proposeAtRoot_of_binding {b : Binding} (hb : (w.handler root).binding = some b)
    (obs : Observers ρ σ α) (m : Modification α) (view : Option Viewpoint) (size : Nat) :
    w.proposeAtRoot obs root m view size =
      (.ok (w.ask obs root (.before b.container root m view size)).1,
        (w.ask obs root (.before b.container root m view size)).2) := by
  obtain ⟨answer, w', hdecide⟩ : ∃ answer w',
      ((w.poised obs root (.before b.container root m view size)).hooksOfRoot root).decide obs
        (.before b.container root m view size)
        (w.poised obs root (.before b.container root m view size)) = (answer, w') := ⟨_, _, rfl⟩
  simp only [poised, Event.before] at hdecide
  simp only [World.proposeAtRoot, hb, ask, poised, Event.before, hdecide]
  cases answer <;> rfl

theorem concludeAtRoot_of_binding [ObjectIdentity α] {b : Binding}
    (hb : (w.handler root).binding = some b) (obs : Observers ρ σ α) (offset : Nat)
    (c : Completion α) (view : Option Viewpoint) (size : Nat) :
    w.concludeAtRoot obs root offset c view size =
      (.ok (), w.tell obs root
        (.after b.container root offset c view (w.handler root).preSize size)) := by
  simp only [World.concludeAtRoot, hb]
  rfl

theorem Hosts.seated (hw : w.Hosts root observed) : w.Seated root ⟨root, observed, none⟩ where
  hosts := hw
  reaches := by simp [root?, hw.isRoot]
  seen := ⟨observed, hw.bound, by simp [viewpoint?, hw.isRoot]⟩

namespace Seated

theorem isBound (hs : w.Seated h seat) : (w.handler h).isBound := by
  obtain ⟨id, hid, -⟩ := hs.seen
  exact Handler.isBound_of_container? hid

theorem offset_eq (hs : w.Seated h seat) : seat.offset = (w.handler h).viewOffset := by
  obtain ⟨id, -, hv⟩ := hs.seen
  rw [Seat.offset, ← hv, viewpoint?]
  split
  next hr => exact (Handler.viewOffset_of_isRoot hr).symm
  next => rfl

theorem rootOf_eq (hs : w.Seated h seat) : (w.handler h).rootOf h = seat.root := by
  have hr := hs.reaches
  unfold root? at hr
  split at hr
  next hroot => exact (Handler.rootOf_of_isRoot hroot h).trans (Option.some.inj hr)
  next =>
    split at hr
    · exact Option.some.inj hr
    · simp at hr

/-- **Handlers stay seated** while the parties are loyal. -/
theorem of_keeps (hs : w.Seated h seat) (hk : Keeps seat.root w w') : w'.Seated h seat := by
  have hrole := hk.role h (index_lt_of_isBound hs.isBound)
  have hbinding := hk.binding h hs.isBound
  obtain ⟨id, hid, hv⟩ := hs.seen
  refine ⟨hs.hosts.of_keeps hk, ?_, id, (Handler.container?_congr hbinding).trans hid, ?_⟩
  · have hr := hs.reaches
    unfold root? at hr ⊢
    rw [Handler.isRoot_congr hrole, Handler.rootOf_congr hrole, hs.rootOf_eq,
      hk.live hs.hosts.live]
    rw [hs.rootOf_eq, hs.hosts.live] at hr
    exact hr
  · rw [← hv, viewpoint?, viewpoint?, Handler.isRoot_congr hrole, Handler.viewOffset_congr hrole]

/-! ### Proposals and conclusions -/

theorem reachRoot (hs : w.Seated h seat) (obs : Observers ρ σ α) :
    w.reachRoot obs h = (.ok seat.root, w) := by
  simp [World.reachRoot, hs.reaches]

/-- **A proposal is one question** to the root's hooks. -/
theorem propose (hs : w.Seated h seat) (obs : Observers ρ σ α) (m : Modification α) (size : Nat) :
    w.propose obs h m size =
      (.ok (w.ask obs seat.root (seat.before m size)).1,
        (w.ask obs seat.root (seat.before m size)).2) := by
  obtain ⟨id, hid, hv⟩ := hs.seen
  obtain ⟨b, hb, rfl⟩ := Handler.binding_of_container? hid
  obtain ⟨b', hb', hobserved⟩ := Handler.binding_of_container? hs.hosts.bound
  simp only [World.propose, hb, hs.reachRoot obs, proposeAtRoot_of_binding hb', hobserved, hv,
    ← hs.offset_eq]
  rfl

end Seated

def report [ObjectIdentity α] (obs : Observers ρ σ α) (seat : Seat) (c : Completion α) (size : Nat)
    (w : World ρ σ) : World ρ σ :=
  match c.absent? with
  | some kind => w.emit obs (.nothingRemoved kind)
  | none => w.tell obs seat.root (seat.after c (w.handler seat.root).preSize size)

/-- **A conclusion is one message** to the root's hooks, with the size the root remembers, or none
if a removal found nothing. -/
theorem Seated.conclude [ObjectIdentity α] (hs : w.Seated h seat) (obs : Observers ρ σ α)
    (c : Completion α) (size : Nat) :
    w.conclude obs h c size = (.ok (), w.report obs seat c size) := by
  unfold report
  cases hc : c.absent? with
  | some kind => simp only [World.conclude, hc]
  | none =>
    obtain ⟨id, hid, hv⟩ := hs.seen
    obtain ⟨b, hb, rfl⟩ := Handler.binding_of_container? hid
    obtain ⟨b', hb', hobserved⟩ := Handler.binding_of_container? hs.hosts.bound
    simp only [World.conclude, hc, hb, hs.reachRoot obs, concludeAtRoot_of_binding hb', hobserved,
      hv, ← hs.offset_eq]
    rfl

theorem report_keeps [ObjectIdentity α] (seat : Seat) (hl : obs.Loyal seat.root) (w : World ρ σ)
    (c : Completion α) (size : Nat) : Keeps seat.root w (w.report obs seat c size) := by
  unfold report
  split
  · exact (w.emit_spares _).toKeeps
  · exact tell_keeps hl ..

theorem report_spares [ObjectIdentity α] (seat : Seat) (hd : obs.Discreet seat.root)
    (w : World ρ σ) (c : Completion α) (size : Nat) :
    Spares seat.root w (w.report obs seat c size) := by
  unfold report
  split
  · exact w.emit_spares _
  · exact tell_spares hd ..

/-! ### Operations -/

def reported [ObjectIdentity α] (obs : Observers ρ σ α) (seat : Seat)
    (r : Option (Completion α × Nat)) (w : World ρ σ) : World ρ σ :=
  match r with
  | none => w
  | some (c, size) => w.report obs seat c size

/-- **The protocol of an operation.**  It fails its checks and calls nobody, or asks once; if
refused it changes nothing, and otherwise it commits and reports. -/
theorem Seated.perform {S β : Type} [ObjectIdentity α] [Noting S] (hs : w.Seated h seat)
    (hl : obs.Loyal seat.root) (operation : Operation S α β) (s : S) :
    WatchedContainers.perform obs h operation s w =
      match operation s with
      | .error e => (.error e, s, w)
      | .ok plan =>
        match w.ask obs seat.root (seat.before plan.proposal plan.size) with
        | (false, w') => (.ok plan.refused, s, w')
        | (true, w') =>
          (plan.commit.result, Noting.settle plan.commit.state,
            (w'.collect obs (Noting.calls plan.commit.state)).reported obs seat
              plan.commit.report) := by
  unfold WatchedContainers.perform
  cases operation s with
  | error e => rfl
  | ok plan =>
    have hkept := ask_keeps hl w (seat.before plan.proposal plan.size)
    simp only [hs.propose obs]
    cases hask : w.ask obs seat.root (seat.before plan.proposal plan.size) with
    | mk b w' =>
      rw [hask] at hkept
      cases b with
      | false => rfl
      | true =>
        have hs' := (hs.of_keeps hkept).of_keeps
          (w'.collect_spares obs (Noting.calls plan.commit.state)).toKeeps
        simp only
        cases plan.commit.report with
        | none => rfl
        | some r =>
          obtain ⟨c, size⟩ := r
          simp only [hs'.conclude obs]
          rfl

end World

end WatchedContainers
