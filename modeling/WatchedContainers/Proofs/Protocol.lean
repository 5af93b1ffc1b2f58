import WatchedContainers.Proofs.Dispatch
import WatchedContainers.Watched.Run

/-!
# The protocol under a judge

A handler is attached to a root when it is seated there and the root calls a judge.

* `Presides.ask`, `Presides.tell`: a judge hears of each call once.
* `Attached.report`: what it hears of a completion.
* `Attached.extend`: handlers stay attached when others are made and when proposals are made.
-/

namespace WatchedContainers

variable {α : Type}

/-! ### Seats -/

namespace Seat

/-- What the root's hooks are told of a completion, which is nothing if a removal found nothing. -/
def reports [ObjectIdentity α] (seat : Seat) (c : Completion α) (preSize postSize : Nat) :
    List (Heard α) :=
  if c.absent?.isSome then [] else [.told (seat.after c preSize postSize)]

end Seat

namespace World

variable {w w' w'' : HeardWorld α} {h root : HandlerRef} {seat : Seat} {observed : ContainerId}

/-! ### Handlers that stay as they are -/

/-- The hooks stay, and so do the bound handlers up to the size remembered by a root. -/
structure Extends (w w' : HeardWorld α) : Prop where
  hooks : w'.hooks = w.hooks
  handler : ∀ h, (w.handler h).isBound → ∃ n, w'.handler h = { w.handler h with preSize := n }

namespace Extends

theorem refl (w : HeardWorld α) : w.Extends w := ⟨rfl, fun h _ => ⟨(w.handler h).preSize, rfl⟩⟩

theorem trans (hw : w.Extends w') (hw' : w'.Extends w'') : w.Extends w'' := by
  refine ⟨hw'.hooks.trans hw.hooks, fun h hb => ?_⟩
  obtain ⟨n, hn⟩ := hw.handler h hb
  obtain ⟨m, hm⟩ := hw'.handler h (by rw [hn]; exact hb)
  exact ⟨m, by rw [hm, hn]⟩

end Extends

def judged (w : HeardWorld α) (root : HandlerRef) (size : Nat) (calls : List (Heard α)) :
    HeardWorld α :=
  { w.modifyHandler root fun x => { x with preSize := size } with outside := w.outside ++ calls }

theorem judged_append (w : HeardWorld α) (root : HandlerRef) (size : Nat)
    (calls more : List (Heard α)) :
    { w.judged root size calls with outside := (w.judged root size calls).outside ++ more } =
      w.judged root size (calls ++ more) := by
  simp [judged]

theorem judged_extends (w : HeardWorld α) (root : HandlerRef) (size : Nat)
    (calls : List (Heard α)) : w.Extends (w.judged root size calls) := by
  refine ⟨rfl, fun h hb => ?_⟩
  change ∃ n, (w.modifyHandler root _).handler h = _
  rw [handler_modifyHandler _ _ _ _ (index_lt_of_isBound hb)]
  split
  · exact ⟨size, rfl⟩
  · exact ⟨(w.handler h).preSize, rfl⟩

/-! ### Attached handlers -/

/-- The root handler is alive, watches the container `observed` and calls a judge. -/
structure Presides (w : HeardWorld α) (root : HandlerRef) (observed : ContainerId) : Prop where
  hooks : w.hooksOfRoot root = .policy ()
  bound : (w.handler root).container? = some observed
  live : w.isLive root

/-- The handler `h` raises its events at the root of the seat, in the name of the seat's view. -/
structure Attached (w : HeardWorld α) (h : HandlerRef) (seat : Seat) : Prop where
  presides : w.Presides seat.root seat.observed
  reaches : w.root? h = some seat.root
  seen : ∃ id, (w.handler h).container? = some id ∧ viewpoint? (w.handler h) id = seat.view

theorem Presides.isRoot (hp : w.Presides root observed) : (w.handler root).isRoot := by
  have hh := hp.hooks
  unfold hooksOfRoot at hh
  split at hh
  next hr => simp [Handler.isRoot, hr]
  next => simp at hh

theorem Presides.hosts (hp : w.Presides root observed) : w.Hosts root observed :=
  ⟨hp.isRoot, hp.bound, hp.live⟩

theorem Presides.attached (hp : w.Presides root observed) :
    w.Attached root ⟨root, observed, none⟩ :=
  ⟨hp, hp.hosts.seated.reaches, hp.hosts.seated.seen⟩

namespace Attached

theorem seated (ha : w.Attached h seat) : w.Seated h seat :=
  ⟨ha.presides.hosts, ha.reaches, ha.seen⟩

theorem isBound (ha : w.Attached h seat) : (w.handler h).isBound := ha.seated.isBound

theorem offset_eq (ha : w.Attached h seat) : seat.offset = (w.handler h).viewOffset :=
  ha.seated.offset_eq

theorem rootOf_eq (ha : w.Attached h seat) : (w.handler h).rootOf h = seat.root :=
  ha.seated.rootOf_eq

/-- **Handlers stay attached** while the world grows. -/
theorem extend (ha : w.Attached h seat) (hw : w.Extends w') : w'.Attached h seat := by
  obtain ⟨n, hn⟩ := hw.handler _ ha.isBound
  obtain ⟨m, hm⟩ := hw.handler _ (Handler.isBound_of_container? ha.presides.bound)
  obtain ⟨id, hid, hv⟩ := ha.seen
  refine ⟨⟨?_, ?_, ?_⟩, ?_, id, ?_, ?_⟩
  · have := ha.presides.hooks
    simpa [hooksOfRoot, hooksAt, hm, hw.hooks] using this
  · simpa [Handler.container?, hm] using ha.presides.bound
  · simpa [isLive, hm] using ha.presides.live
  · have hr := ha.reaches
    unfold root? isLive at hr ⊢
    rw [hn]
    change (if (w.handler h).isRoot then some h else
      if (w'.handler ((w.handler h).rootOf h)).handles != 0 then some ((w.handler h).rootOf h)
      else none) = _
    rw [ha.rootOf_eq, hm] at *
    exact hr
  · rw [hn]
    exact hid
  · rw [hn]
    exact hv

theorem judged (ha : w.Attached h seat) (root : HandlerRef) (size : Nat)
    (calls : List (Heard α)) : (w.judged root size calls).Attached h seat :=
  ha.extend (judged_extends w root size calls)

end Attached

/-! ### Calls of a judge -/

/-- A judge is asked once, and the root remembers the size. -/
theorem Presides.ask (hp : w.Presides root observed) (j : Judge α) (e : Event α) :
    w.ask j.observers root e =
      (j w.outside e, w.judged root e.preSize [.asked e (j w.outside e)]) := by
  have hhooks : (w.poised j.observers root e).hooksOfRoot root = .policy () :=
    (hp.attached.judged root e.preSize []).presides.hooks
  unfold World.ask
  rw [hhooks]
  simp only [Hooks.decide, Judge.observers, poised, emit, modifyHandler, World.judged]
  cases j w.outside e <;> rfl

theorem Presides.tell (hp : w.Presides root observed) (j : Judge α) (e : Event α) :
    w.tell j.observers root e = { w with outside := w.outside ++ [.told e] } := by
  have hhooks : (w.emit j.observers (.dispatching e)).hooksOfRoot root = .policy () := hp.hooks
  simp only [World.tell, hhooks]
  rfl

theorem loyal_judge (j : Judge α) (root : HandlerRef) :
    j.observers.Loyal root :=
  ⟨fun _ _ _ => .of_outside rfl rfl, fun _ _ _ => .of_outside rfl rfl⟩

namespace Attached

/-- What is told of a completion, with the size remembered last; a removal that found nothing is
told to nobody. -/
theorem report [ObjectIdentity α] (ha : w.Attached h seat) (j : Judge α) (c : Completion α)
    (size : Nat) :
    w.report j.observers seat c size =
      { w with outside := w.outside ++ seat.reports c (w.handler seat.root).preSize size } := by
  unfold World.report Seat.reports
  cases hc : c.absent? with
  | some kind =>
    simp only [Option.isSome_some, if_true, List.append_nil]
    rfl
  | none =>
    simp only [Option.isSome_none, Bool.false_eq_true, if_false]
    exact ha.presides.tell j _

theorem preSize_judged (ha : w.Attached h seat) (size : Nat) (calls : List (Heard α)) :
    ((w.judged seat.root size calls).handler seat.root).preSize = size := by
  have hlt := index_lt_of_isLive ha.presides.live
  change ((w.modifyHandler seat.root _).handler seat.root).preSize = size
  rw [handler_modifyHandler _ _ _ _ hlt, if_pos rfl]

end Attached

end World

end WatchedContainers
