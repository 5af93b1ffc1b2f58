import WatchedContainers.Proofs.Protocol

/-!
# Opening views

A view that is opened on an attached handler gets a handler of its own, attached to the same root
and seated at the view; nothing is heard of it.  It fails for a position or a depth out of bounds
only, never for want of a binding.
-/

namespace WatchedContainers

variable {C κ α : Type}

namespace World

variable {w w' : HeardWorld α} {h ref : HandlerRef} {seat : Seat}

/-! ### New handlers -/

theorem addHandler_extends (w : HeardWorld α) (x : Handler) : w.Extends (w.addHandler x).2 :=
  ⟨rfl, fun h hb => ⟨(w.handler h).preSize, by
    rw [handler_addHandler w x (index_lt_of_isBound hb)]⟩⟩

theorem bind_eq (j : Judge α) (w : HeardWorld α) (id : ContainerId) {caps : Capabilities}
    (hcaps : caps.isEmpty = false) (hunbound : (w.handler ref).binding = none) :
    w.bind j.observers ref id caps =
      (.ok (), w.modifyHandler ref fun x => { x with binding := some ⟨id, caps⟩ }) := by
  have hb : (w.handler ref).isBound = false := by
    rw [Handler.isBound, hunbound]
    rfl
  simp only [bind, hcaps, hb, Bool.false_eq_true, if_false]
  rfl

theorem modifyHandler_extends (f : Handler → Handler)
    (hunbound : (w.handler ref).binding = none) : w.Extends (w.modifyHandler ref f) := by
  refine ⟨rfl, fun h hb => ⟨(w.handler h).preSize, ?_⟩⟩
  rw [handler_modifyHandler _ _ _ _ (index_lt_of_isBound hb), if_neg]
  rintro rfl
  simp [Handler.isBound, hunbound] at hb

def withView (w : HeardWorld α) (x : Handler) (caps : Capabilities) : HeardWorld α :=
  (w.addHandler x).2.freshId.2.modifyHandler ⟨w.handlers.size⟩ fun y =>
    { y with binding := some ⟨⟨w.nextId⟩, caps⟩ }

theorem handler_withView (w : HeardWorld α) (x : Handler) (caps : Capabilities) :
    (w.withView x caps).handler ⟨w.handlers.size⟩ =
      { x with binding := some ⟨⟨w.nextId⟩, caps⟩ } := by
  have hlt : (⟨w.handlers.size⟩ : HandlerRef).index <
      (w.addHandler x).2.freshId.2.handlers.size := by
    simp [addHandler, freshId]
  rw [withView, handler_modifyHandler _ _ _ _ hlt, if_pos rfl]
  exact congrArg (fun y : Handler => { y with binding := some ⟨⟨w.nextId⟩, caps⟩ })
    (w.handler_addHandler_self x)

theorem withView_extends (w : HeardWorld α) {x : Handler} (caps : Capabilities)
    (hx : x.binding = none) : w.Extends (w.withView x caps) := by
  have hunbound : ((w.addHandler x).2.freshId.2.handler ⟨w.handlers.size⟩).binding = none :=
    (congrArg Handler.binding (w.handler_addHandler_self x)).trans hx
  have hfresh : (w.addHandler x).2.Extends (w.addHandler x).2.freshId.2 :=
    ⟨rfl, fun h _ => ⟨((w.addHandler x).2.handler h).preSize, rfl⟩⟩
  exact ((w.addHandler_extends x).trans hfresh).trans (modifyHandler_extends _ hunbound)

/-- **A new view is attached** to the root of the handler it was opened on. -/
theorem Attached.withView (ha : w.Attached h seat) {x : Handler} (caps : Capabilities)
    (hx : x.binding = none) (hview : x.isRoot = false)
    (hroot : ∀ self, x.rootOf self = seat.root) :
    (w.withView x caps).Attached ⟨w.handlers.size⟩
      ⟨seat.root, seat.observed, some ⟨⟨w.nextId⟩, x.viewOffset⟩⟩ := by
  have hgrow := ha.extend (w.withView_extends caps hx)
  refine ⟨hgrow.presides, ?_, ⟨w.nextId⟩, ?_, ?_⟩
  · have hlive := hgrow.presides.live
    simp only [root?, w.handler_withView x caps]
    change (if x.isRoot then _ else
      if World.isLive _ (x.rootOf _) then some (x.rootOf _) else _) = _
    rw [hview, if_neg (by simp), hroot, if_pos hlive]
  · rw [w.handler_withView x caps]
    rfl
  · rw [w.handler_withView x caps]
    change (if x.isRoot then none else some _) = _
    rw [hview, if_neg (by simp)]
    rfl

theorem bind_withView (w : HeardWorld α) (j : Judge α) {x : Handler} {caps : Capabilities}
    (hcaps : caps.isEmpty = false) (hx : x.binding = none) :
    (w.addHandler x).2.freshId.2.bind j.observers ⟨w.handlers.size⟩
      (w.addHandler x).2.freshId.1 caps = (.ok (), w.withView x caps) :=
  bind_eq j _ _ hcaps ((congrArg Handler.binding (w.handler_addHandler_self x)).trans hx)

/-! ### Views of lists and of sorted sets -/

def rangeHandler (w : HeardWorld α) (h : HandlerRef) (start depth : Nat) : Handler :=
  { role := .range ((w.handler h).rootOf h) (start + (w.handler h).viewOffset), depth
    config := (w.handler h).config }

def keyedHandler (w : HeardWorld α) (h : HandlerRef) (depth : Nat) : Handler :=
  { role := .keyed ((w.handler h).rootOf h), depth, config := (w.handler h).config }

namespace Attached

theorem makeRangeView_eq (ha : w.Attached h seat) (j : Judge α) (start stop : Nat) :
    w.makeRangeView j.observers h start stop =
      if start > stop then (.error (.invalidArgument (.reversedRange start stop)), w)
      else
        match depthBelow (w.handler h) with
        | .error e => (.error e, w)
        | .ok depth =>
          (.ok ⟨w.handlers.size⟩, (w.addHandler (w.rangeHandler h start depth)).2) := by
  simp only [makeRangeView, ha.isBound, Bool.not_true, Bool.false_eq_true, if_false]
  split
  · rfl
  · cases depthBelow (w.handler h) <;> rfl

theorem makeKeyedView_eq (ha : w.Attached h seat) (j : Judge α) :
    w.makeKeyedView j.observers h =
      match depthBelow (w.handler h) with
      | .error e => (.error e, w)
      | .ok depth => (.ok ⟨w.handlers.size⟩, (w.addHandler (w.keyedHandler h depth)).2) := by
  simp only [makeKeyedView, ha.isBound, Bool.not_true, Bool.false_eq_true, if_false]
  cases depthBelow (w.handler h) <;> rfl

theorem openSubList [Collection C α] [Positional C α] (ha : w.Attached h seat) (j : Judge α)
    (hcaps : (Collection.capabilities C).isEmpty = false) (x : Segment C) (start stop : Nat) :
    SubList.openIn j.observers h x start stop w =
      if stop > x.length then (.error (.indexOutOfBounds stop x.length), w)
      else if start > stop then (.error (.invalidArgument (.reversedRange start stop)), w)
      else
        match depthBelow (w.handler h) with
        | .error e => (.error e, w)
        | .ok depth =>
          (.ok ⟨x.narrow start stop, ⟨w.handlers.size⟩, ⟨w.nextId⟩⟩,
            w.withView (w.rangeHandler h start depth) (Collection.capabilities C)) := by
  unfold SubList.openIn
  by_cases hstop : stop > x.length
  · rw [if_pos hstop, if_pos hstop]
  · rw [if_neg hstop, if_neg hstop, ha.makeRangeView_eq]
    by_cases hstart : start > stop
    · rw [if_pos hstart, if_pos hstart]
    · rw [if_neg hstart, if_neg hstart]
      cases depthBelow (w.handler h) with
      | error e => rfl
      | ok depth =>
        have hbind := w.bind_withView j (x := w.rangeHandler h start depth) hcaps rfl
        simp only [hbind]
        rfl

theorem openSortedView [Collection C α] [Ord α] (ha : w.Attached h seat) (j : Judge α)
    (hcaps : (Collection.capabilities C).isEmpty = false) (x : SubRange C α) (b : Bounds α) :
    SortedView.openIn j.observers h x b w =
      match depthBelow (w.handler h) with
      | .error e => (.error e, w)
      | .ok depth =>
        (.ok ⟨⟨x.set, x.bounds.intersect b⟩, ⟨w.handlers.size⟩, ⟨w.nextId⟩⟩,
          w.withView (w.keyedHandler h depth) (Collection.capabilities C)) := by
  unfold SortedView.openIn
  rw [ha.makeKeyedView_eq]
  cases depthBelow (w.handler h) with
  | error e => rfl
  | ok depth =>
    have hbind := w.bind_withView j (x := w.keyedHandler h depth) hcaps rfl
    simp only [hbind]
    rfl

end Attached

end World

end WatchedContainers
