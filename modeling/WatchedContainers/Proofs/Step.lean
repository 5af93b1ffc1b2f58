import WatchedContainers.Proofs.Soundness

/-!
# Steps

What an action does to a sound session is one of a few things, which `Standard.Step` lists once and
for all: a command fails, is refused or is accepted, a query is answered, an iterator moves, a view
is opened or not, or what was opened last is closed.

* `Standard.Sound.step`: **every action that is offered is a step**.
* `Standard.Step.sound`: **a step leads from a sound session to a sound session**.
-/

namespace WatchedContainers

open Session (seatOf)

variable {C κ α : Type}

namespace Error

/-- Errors of a handler that is bound to nothing, bound already, or left without its root. -/
def isDetachment : Error → Bool
  | notBound | alreadyBound | rootDetached => true
  | _ => false

end Error

namespace Standard

structure Opened (k : Standard α C κ) (s : Session C κ α) (w : HeardWorld α) (f : Frame κ α)
    (w' : HeardWorld α) : Prop where
  outside : w'.outside = w.outside
  grown : w.Extends w'
  attached : w'.Attached f.handler (seatOf s.root (f :: s.frames))
  fits : k.Fits s.container (f :: s.frames)

/-- **What an action does**, with its response and what it leads to. -/
inductive Step [ObjectIdentity α] (k : Standard α C κ) (j : Judge α) (s : Session C κ α)
    (w : HeardWorld α) :
    Action α → Except Error (Response α) → Session C κ α → HeardWorld α → Prop
  | failed (command : Command α) (f : C → Except Error (Mutation C α)) (e : Error)
      (hf : k.mutation? s.frames command = some f) (he : f s.container = .error e) :
      Step k j s w (.command command) (.error e) s w
  | refused (command : Command α) (f : C → Except Error (Mutation C α)) (m : Mutation C α)
      (hf : k.mutation? s.frames command = some f) (hm : f s.container = .ok m)
      (hj : j w.outside (s.seat.before m.proposal (k.size s.container)) = false) :
      Step k j s w (.command command) (.ok command.refusal) s
        (w.judged s.seat.root (k.size s.container)
          [.asked (s.seat.before m.proposal (k.size s.container)) false])
  | accepted (command : Command α) (f : C → Except Error (Mutation C α)) (m : Mutation C α)
      (hf : k.mutation? s.frames command = some f) (hm : f s.container = .ok m)
      (hj : j w.outside (s.seat.before m.proposal (k.size s.container)) = true) :
      Step k j s w (.command command) (.ok m.response) (k.afterward command s m.container)
        (w.judged s.seat.root (k.size s.container)
          (.asked (s.seat.before m.proposal (k.size s.container)) true ::
            s.seat.reports m.completion (k.size s.container) (k.size m.container)))
  | answered (q : Query α) (r : Response α) (hr : k.answer? q s = some r) :
      Step k j s w (.query q) (.ok r) s w
  | moved (m : Move) (v : Option α) (frames : List (Frame κ α)) (hmoved : Moved s.frames frames)
      (hfront : k.FrontFits s.container frames) :
      Step k j s w (.move m) (.ok (.element v)) { s with frames } w
  | notOpened (o : Opening α) (e : Error) (he : e.isDetachment = false) :
      Step k j s w (.openFrame o) (.error e) s w
  | opened (o : Opening α) (f : Frame κ α) (w' : HeardWorld α) (hf : k.Opened s w f w') :
      Step k j s w (.openFrame o) (.ok .nothing) (s.push f) w'
  | closed (f : Frame κ α) (rest : List (Frame κ α)) (hs : s.frames = f :: rest) :
      Step k j s w .close (.ok .nothing) { s with frames := rest } w

end Standard

/-! ### Moves -/

namespace ListIterator

variable [BEq α] (it : ListIterator (Sequence α))

theorem segment_next : it.next.2.segment = it.segment := by
  unfold next
  split <;> rfl

omit [BEq α] in
theorem segment_previous : it.previous.2.segment = it.segment := by
  unfold previous
  split <;> rfl

theorem inRange_next {it : ListIterator (Sequence α)}
    (hr : InRange it.cursor it.last it.segment.length) :
    InRange it.next.2.cursor it.next.2.last it.segment.length := by
  unfold next hasNext
  split
  next h => exact InRange.of_lt (by simpa using h)
  next => exact hr

theorem inRange_previous {it : ListIterator (Sequence α)}
    (hr : InRange it.cursor it.last it.segment.length) :
    InRange it.previous.2.cursor it.previous.2.last it.segment.length := by
  unfold previous previousIndex?
  by_cases h : it.cursor = 0
  · simp only [h, if_true]
    exact h ▸ hr
  · simp only [h, if_false]
    exact hr.previous h

end ListIterator

namespace Standard

theorem move?_iteration (k : Standard α C κ) (root : Watched C) (it : Iteration Unit κ α)
    (h : HandlerRef) (rest : List (Frame κ α)) :
    k.move? .next ⟨root, .iteration it h :: rest⟩ =
      some ((k.next (it.over root.inner)).1,
        ⟨root, .iteration ((k.next (it.over root.inner)).2.over ()) h :: rest⟩) := by
  cases k <;> rfl

section ListMoves

variable [BEq α] (root : Watched (Sequence α)) (it : ListIterator Unit) (h : HandlerRef)
  (rest : List (Frame PositionCursor α))

theorem move?_next :
    sequence.move? .next ⟨root, .listIterator it h :: rest⟩ =
      some ((it.over root.inner).next.1,
        ⟨root, .listIterator ((it.over root.inner).next.2.over ()) h :: rest⟩) := rfl

theorem move?_previous :
    sequence.move? .previous ⟨root, .listIterator it h :: rest⟩ =
      some ((it.over root.inner).previous.1,
        ⟨root, .listIterator ((it.over root.inner).previous.2.over ()) h :: rest⟩) := rfl

theorem moved_listIterator {root : Watched (Sequence α)} {it : ListIterator Unit} {h : HandlerRef}
    {rest : List (Frame PositionCursor α)} {x : ListIterator (Sequence α)}
    (hfront : sequence.FrontFits root.inner (.listIterator it h :: rest))
    (hsegment : x.segment = (it.over root.inner).segment)
    (hr : ListIterator.InRange x.cursor x.last (it.over root.inner).segment.length) :
    Moved (.listIterator it h :: rest) (.listIterator (x.over ()) h :: rest) ∧
      sequence.FrontFits root.inner (.listIterator (x.over ()) h :: rest) := by
  have hunit : (x.over ()).segment = it.segment := congrArg (Segment.over · ()) hsegment
  refine ⟨.listIterator _ _ _ _ hunit, ?_⟩
  rw [FrontFits, hunit]
  exact ⟨hfront.1, hr⟩

end ListMoves

variable {k : Standard α C κ} {j : Judge α} {s s' : Session C κ α} {w w' : HeardWorld α}

/-- A move changes no more than the iterator in front. -/
theorem Fits.move {m : Move} {v : Option α} (hs : k.Fits s.container s.frames)
    (h : k.move? m s = some (v, s')) :
    ∃ frames, s' = { s with frames } ∧ Moved s.frames frames ∧ k.FrontFits s.container frames := by
  obtain ⟨root, frames⟩ := s
  cases frames with
  | nil => cases k <;> cases m <;> simp [move?, Session.move?] at h
  | cons f rest =>
    cases f with
    | subList x => cases k <;> cases m <;> simp [move?, Session.move?] at h
    | sortedView x => cases k <;> cases m <;> simp [move?, Session.move?] at h
    | iteration it ref =>
      cases m with
      | previous => cases k <;> simp [move?, Session.move?] at h
      | next =>
        rw [move?_iteration] at h
        obtain ⟨rfl, rfl⟩ := Prod.mk.inj (Option.some.inj h)
        have hit : k.InStep root.inner it := hs.front
        have hover : k.InStep (it.over root.inner).container (it.over root.inner) :=
          hit.of_fields rfl rfl rfl rfl
        exact ⟨_, rfl, .iteration .., hover.next.of_fields rfl rfl rfl rfl⟩
    | listIterator it ref =>
      cases k with
      | sequence =>
        have hr : ListIterator.InRange (it.over root.inner).cursor (it.over root.inner).last
            (it.over root.inner).segment.length := hs.front.2
        cases m with
        | next =>
          rw [move?_next] at h
          obtain ⟨rfl, rfl⟩ := Prod.mk.inj (Option.some.inj h)
          exact ⟨_, rfl, moved_listIterator hs.front (ListIterator.segment_next _)
            (ListIterator.inRange_next hr)⟩
        | previous =>
          rw [move?_previous] at h
          obtain ⟨rfl, rfl⟩ := Prod.mk.inj (Option.some.inj h)
          exact ⟨_, rfl, moved_listIterator hs.front (ListIterator.segment_previous _)
            (ListIterator.inRange_previous hr)⟩
      | queue | uniqueSet | sortedSet | bag => simp [move?, Session.move?, family] at h

/-! ### Openings -/

def Opens (k : Standard α C κ) (s : Session C κ α) (w : HeardWorld α) (w' : HeardWorld α) :
    Except Error (Frame κ α) → Prop
  | .error e => w' = w ∧ e.isDetachment = false
  | .ok f => k.Opened s w f w'

theorem opened_of_map {ρ σ β γ : Type} {x : Except Error β × World ρ σ} {g : β → γ} {f : γ}
    {w' : World ρ σ} (hx : (x.1.map g, x.2) = (.ok f, w')) : ∃ v, x = (.ok v, w') ∧ g v = f := by
  obtain ⟨r, w₁⟩ := x
  cases r with
  | error e => simp [Except.map] at hx
  | ok v =>
    cases hx
    exact ⟨v, rfl, rfl⟩

theorem isDetachment_of_depthBelow {h : Handler} {e : Error} (he : World.depthBelow h = .error e) :
    e.isDetachment = false := by
  unfold World.depthBelow at he
  split at he
  · obtain rfl := Except.error.inj he
    rfl
  · simp at he

/-- A segment can be opened on the list, or on the sub-list in front. -/
theorem segment?_cases {x : Segment C} (hv : ∀ f ∈ s.frames.tail, f.isView)
    (h : s.segment? = some x) :
    x = ⟨s.container, (flanks s.frames).1, (flanks s.frames).2⟩ ∧ (∀ f ∈ s.frames, f.isView) ∧
      s.seat.offset = (flanks s.frames).1 := by
  obtain ⟨root, frames⟩ := s
  cases frames with
  | nil =>
    obtain rfl := Option.some.inj h
    exact ⟨rfl, by simp, rfl⟩
  | cons f rest =>
    cases f with
    | subList v =>
      obtain rfl := Option.some.inj h
      exact ⟨rfl, List.forall_mem_cons.2 ⟨rfl, hv⟩, rfl⟩
    | sortedView v => simp [Session.segment?] at h
    | iteration it ref => simp [Session.segment?] at h
    | listIterator it ref => simp [Session.segment?] at h

/-- A range can be opened on the sorted set, or on the view in front. -/
theorem range?_cases [Ord α] {x : SubRange C α} (hv : ∀ f ∈ s.frames.tail, f.isView)
    (h : s.range? = some x) : (∀ f ∈ s.frames, f.isView) ∧ flanks s.frames = (0, 0) := by
  obtain ⟨root, frames⟩ := s
  cases frames with
  | nil => exact ⟨by simp, rfl⟩
  | cons f rest =>
    cases f with
    | sortedView v => exact ⟨List.forall_mem_cons.2 ⟨rfl, hv⟩, rfl⟩
    | subList v => simp [Session.range?] at h
    | iteration it ref => simp [Session.range?] at h
    | listIterator it ref => simp [Session.range?] at h

theorem Sound.attached (hs : k.Sound s w) : w.Attached s.handler s.seat := by
  rw [s.handler_eq]
  exact hs.served.attached

theorem Fits.subList [BEq α] {s : Session (Sequence α) PositionCursor α} {start stop : Nat}
    (hs : sequence.Fits s.container s.frames) {x : Segment (Sequence α)}
    (hx : s.segment? = some x) (hstart : start ≤ stop) (hstop : stop ≤ x.length)
    {v : SubList (Sequence α)} (hv : v.segment = x.narrow start stop) :
    sequence.Fits s.container (.ofSubList v :: s.frames) := by
  obtain ⟨rfl, hviews, -⟩ := segment?_cases hs.views hx
  have hinside : (flanks s.frames).1 + (flanks s.frames).2 ≤ s.container.items.length := hs.inside
  have hlen : stop ≤ s.container.items.length - (flanks s.frames).1 - (flanks s.frames).2 := hstop
  have hflanks : flanks (Frame.ofSubList v :: s.frames : List (Frame PositionCursor α)) =
      ((flanks s.frames).1 + start, (flanks s.frames).2 +
        (s.container.items.length - (flanks s.frames).1 - (flanks s.frames).2 - stop)) := by
    rw [Frame.ofSubList, flanks, hv]
    rfl
  refine ⟨hviews, ⟨?_, ?_, hs.nested⟩, ?_, trivial⟩
  · rw [hflanks]
    exact Nat.le_add_right ..
  · rw [hflanks]
    exact Nat.le_add_right ..
  · rw [hflanks]
    change (flanks s.frames).1 + start + ((flanks s.frames).2 +
      (s.container.items.length - (flanks s.frames).1 - (flanks s.frames).2 - stop)) ≤
        s.container.items.length
    omega

theorem Fits.sortedView [BEq α] [Ord α] [Std.TransOrd α]
    {s : Session (SortedSet α) (ResumingCursor α) α} (hs : sortedSet.Fits s.container s.frames)
    {x : SubRange (SortedSet α) α} (hx : s.range? = some x) (v : SortedView (SortedSet α) α) :
    sortedSet.Fits s.container (.ofSortedView v :: s.frames) := by
  obtain ⟨hviews, hflanks⟩ := range?_cases hs.views hx
  refine ⟨hviews, ⟨?_, ?_, hs.nested⟩, Nat.zero_le _, trivial⟩
  · simp [hflanks]
  · simp [hflanks]

/-- An iteration over the container, or over the range in front, fits: it starts in step. -/
theorem Fits.iteration {it : Iteration C κ α} (hs : k.Fits s.container s.frames)
    (hit : (let _ := k.collection; let _ := k.traversal; s.iteration? k.family) = some it)
    (ref : HandlerRef) : k.Fits s.container (.iteration (it.over ()) ref :: s.frames) := by
  suffices h : k.InStep s.container it ∧ (∀ f ∈ s.frames, f.isView) ∧ flanks s.frames = (0, 0) by
    obtain ⟨hit, hviews, hflanks⟩ := h
    refine ⟨hviews, ⟨?_, ?_, hs.nested⟩, Nat.zero_le _, hit.of_fields rfl rfl rfl rfl⟩
    · simp [hflanks]
    · simp [hflanks]
  have hviews := hs.views
  obtain ⟨root, frames⟩ := s
  cases frames with
  | nil =>
    obtain rfl := Option.some.inj hit
    exact ⟨.along k root.inner, by simp, rfl⟩
  | cons f rest =>
    cases f with
    | sortedView v =>
      cases k with
      | sortedSet =>
        obtain rfl := Option.some.inj hit
        exact ⟨⟨rfl, ⟨by simp [Iteration.along]⟩⟩, List.forall_mem_cons.2 ⟨rfl, hviews⟩, rfl⟩
      | sequence | queue | uniqueSet | bag => simp [Session.iteration?, family] at hit
    | subList v => cases k <;> simp [Session.iteration?] at hit
    | iteration it ref => cases k <;> simp [Session.iteration?] at hit
    | listIterator it ref => cases k <;> simp [Session.iteration?] at hit

theorem Fits.listIterator [BEq α] {s : Session (Sequence α) PositionCursor α}
    (hs : sequence.Fits s.container s.frames) {x : Segment (Sequence α)}
    (hx : s.segment? = some x) (ref : HandlerRef) :
    sequence.Fits s.container (.listIterator ((ListIterator.start x).over ()) ref :: s.frames) := by
  obtain ⟨rfl, hviews, -⟩ := segment?_cases hs.views hx
  exact ⟨hviews, ⟨Nat.le_refl _, Nat.le_refl _, hs.nested⟩, hs.inside, rfl, .zero _⟩

theorem Sound.opens_subList [BEq α] {s : Session (Sequence α) PositionCursor α} {start stop : Nat}
    (hs : sequence.Sound s w) {x : Segment (Sequence α)} (hx : s.segment? = some x) :
    sequence.Opens s w (SubList.openIn j.observers s.handler x start stop w).2
      ((SubList.openIn j.observers s.handler x start stop w).1.map .ofSubList) := by
  have hatt := hs.attached
  rw [hatt.openSubList j rfl]
  split
  · exact ⟨rfl, rfl⟩
  next hstop =>
    split
    · exact ⟨rfl, rfl⟩
    next hstart =>
      split
      next e he => exact ⟨rfl, isDetachment_of_depthBelow he⟩
      next depth hdepth =>
        have hfits := hs.fits.subList hx (Nat.not_lt.1 hstart) (Nat.not_lt.1 hstop)
          (v := ⟨x.narrow start stop, ⟨w.handlers.size⟩, ⟨w.nextId⟩⟩) rfl
        obtain ⟨rfl, -, hoffset⟩ := segment?_cases hs.fits.views hx
        have hview := hatt.withView (x := w.rangeHandler s.handler start depth)
          (Collection.capabilities (Sequence α)) rfl rfl fun _ => hatt.rootOf_eq
        have hstarts : (w.rangeHandler s.handler start depth).viewOffset =
            (flanks s.frames).1 + start := by
          rw [← hoffset, hatt.offset_eq, Nat.add_comm]
          rfl
        rw [hstarts, Session.seat, Session.root_seatOf, Session.observed_seatOf] at hview
        exact ⟨rfl, w.withView_extends _ rfl, hview, hfits⟩

theorem Sound.opens_sortedView [BEq α] [Ord α] [Std.TransOrd α]
    {s : Session (SortedSet α) (ResumingCursor α) α} {b : Bounds α}
    (hs : sortedSet.Sound s w) {x : SubRange (SortedSet α) α} (hx : s.range? = some x) :
    sortedSet.Opens s w (SortedView.openIn j.observers s.handler x b w).2
      ((SortedView.openIn j.observers s.handler x b w).1.map .ofSortedView) := by
  have hatt := hs.attached
  rw [hatt.openSortedView j rfl]
  split
  next e he => exact ⟨rfl, isDetachment_of_depthBelow he⟩
  next depth hdepth =>
    have hview := hatt.withView (x := w.keyedHandler s.handler depth)
      (Collection.capabilities (SortedSet α)) rfl rfl fun _ => hatt.rootOf_eq
    rw [Session.seat, Session.root_seatOf, Session.observed_seatOf] at hview
    exact ⟨rfl, w.withView_extends _ rfl, hview, hs.fits.sortedView hx _⟩

/-- A view between two keys is opened unless the keys are reversed. -/
theorem Sound.opens_between [BEq α] [Ord α] [Std.TransOrd α]
    {s : Session (SortedSet α) (ResumingCursor α) α} {start stop : α}
    (hs : sortedSet.Sound s w) {x : SubRange (SortedSet α) α} (hx : s.range? = some x) :
    sortedSet.Opens s w (SortedView.openBetween j.observers s.handler x start stop w).2
      ((SortedView.openBetween j.observers s.handler x start stop w).1.map .ofSortedView) := by
  unfold SortedView.openBetween
  split
  · exact ⟨rfl, rfl⟩
  · exact hs.opens_sortedView hx

/-- An iterator uses the handler of what it was opened on. -/
theorem Sound.opens_iterator {f : Frame κ α} (hs : k.Sound s w) (hh : f.handler = s.handler)
    (hseat : seatOf s.root (f :: s.frames) = s.seat) (hf : k.Fits s.container (f :: s.frames)) :
    k.Opened s w f w where
  outside := rfl
  grown := .refl w
  attached := by
    rw [hh, hseat]
    exact hs.attached
  fits := hf

theorem Sound.opens_iteration {it : Iteration C κ α} (hs : k.Sound s w)
    (hit : (let _ := k.collection; let _ := k.traversal; s.iteration? k.family) = some it) :
    k.Opened s w (.iteration (it.over ()) s.handler) w :=
  hs.opens_iterator rfl rfl (hs.fits.iteration hit s.handler)

theorem Sound.opens_listIterator [BEq α] {s : Session (Sequence α) PositionCursor α}
    (hs : sequence.Sound s w) {x : Segment (Sequence α)} (hx : s.segment? = some x) :
    sequence.Opened s w (.listIterator ((ListIterator.start x).over ()) s.handler) w :=
  hs.opens_iterator rfl rfl (hs.fits.listIterator hx s.handler)

/-- **Openings** fail, or open a frame that fits. -/
theorem Sound.opens {o : Opening α} {r : Except Error (Frame κ α)} (hs : k.Sound s w)
    (h : k.open? j.observers o s w = some (r, w')) : k.Opens s w w' r := by
  cases o with
  | subList start stop =>
    cases k with
    | sequence =>
      obtain ⟨x, hx, hr⟩ := Option.map_eq_some_iff.1 h
      obtain ⟨rfl, rfl⟩ := Prod.mk.inj hr
      exact hs.opens_subList hx
    | queue | uniqueSet | sortedSet | bag => simp [open?, Session.open?, family] at h
  | range b =>
    cases k with
    | sortedSet =>
      obtain ⟨x, hx, hr⟩ := Option.map_eq_some_iff.1 h
      obtain ⟨rfl, rfl⟩ := Prod.mk.inj hr
      exact hs.opens_sortedView hx
    | sequence | queue | uniqueSet | bag => simp [open?, Session.open?, family] at h
  | subSet start stop =>
    cases k with
    | sortedSet =>
      obtain ⟨x, hx, hr⟩ := Option.map_eq_some_iff.1 h
      obtain ⟨rfl, rfl⟩ := Prod.mk.inj hr
      exact hs.opens_between hx
    | sequence | queue | uniqueSet | bag => simp [open?, Session.open?, family] at h
  | iteration =>
    obtain ⟨it, hit, hr⟩ := Option.map_eq_some_iff.1 h
    obtain ⟨rfl, rfl⟩ := Prod.mk.inj hr
    exact hs.opens_iteration hit
  | listIterator =>
    cases k with
    | sequence =>
      obtain ⟨x, hx, hr⟩ := Option.map_eq_some_iff.1 h
      obtain ⟨rfl, rfl⟩ := Prod.mk.inj hr
      exact hs.opens_listIterator hx
    | queue | uniqueSet | sortedSet | bag => simp [open?, Session.open?, family] at h

/-! ### Every action is a step -/

section Steps

variable [ObjectIdentity α] {a : Action α} {r : Except Error (Response α)}

/-- **Every action that is offered is a step.** -/
theorem Sound.step (hs : k.Sound s w) (h : k.act j.observers a s w = some (r, s', w')) :
    k.Step j s w a r s' w' := by
  cases a with
  | command command =>
    rw [act_command hs, Option.map_eq_some_iff] at h
    obtain ⟨f, hf, h⟩ := h
    cases hm : f s.container with
    | error e =>
      rw [hm] at h
      cases h
      exact .failed command f e hf hm
    | ok m =>
      rw [hm] at h
      cases hj : j w.outside (s.seat.before m.proposal (k.size s.container)) with
      | false =>
        simp only [verdict, hj, Bool.false_eq_true, if_false] at h
        cases h
        exact .refused command f m hf hm hj
      | true =>
        simp only [verdict, hj, if_true] at h
        cases h
        exact .accepted command f m hf hm hj
  | query q =>
    obtain ⟨r, hr, h⟩ := Option.map_eq_some_iff.1 h
    cases h
    exact .answered q r hr
  | move m =>
    obtain ⟨⟨v, s₁⟩, hv, h⟩ := Option.map_eq_some_iff.1 h
    cases h
    obtain ⟨frames, rfl, hmoved, hfront⟩ := hs.fits.move hv
    exact .moved m v frames hmoved hfront
  | openFrame o =>
    obtain ⟨⟨f, w₁⟩, hf, h⟩ := Option.map_eq_some_iff.1 h
    have hopens := hs.opens hf
    cases f with
    | error e =>
      cases h
      obtain ⟨rfl, he⟩ := hopens
      exact .notOpened o e he
    | ok f =>
      cases h
      exact .opened o f w' hopens
  | close =>
    obtain ⟨root, frames⟩ := s
    cases frames with
    | nil => simp [act, Session.act] at h
    | cons f rest =>
      cases Option.some.inj h
      exact .closed f rest rfl

/-- **A step leads from a sound session to a sound session.** -/
theorem Step.sound (hs : k.Sound s w) (h : k.Step j s w a r s' w') : k.Sound s' w' := by
  cases h with
  | failed => exact hs
  | refused command f m =>
    exact ⟨hs.served.extend (w.judged_extends ..), hs.fits⟩
  | accepted command f m hf hm hj =>
    have hserved := (k.moved_framesAfter command s.frames).served hs.served
    exact ⟨(hserved.inner m.container).extend (w.judged_extends ..), hs.fits.afterward hf hm⟩
  | answered => exact hs
  | moved m v frames hmoved hfront =>
    exact ⟨hmoved.served hs.served, hs.fits.of_moved hmoved hs.fits.inside hfront⟩
  | notOpened => exact hs
  | opened o f w' hf => exact ⟨⟨hf.attached, hs.served.extend hf.grown⟩, hf.fits⟩
  | closed f rest hrest =>
    obtain ⟨root, frames⟩ := s
    obtain rfl : frames = f :: rest := hrest
    exact ⟨hs.served.2, hs.fits.tail⟩

end Steps

end Standard

end WatchedContainers
