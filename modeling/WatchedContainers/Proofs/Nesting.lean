import WatchedContainers.Proofs.Run

/-!
# Nested sub-lists

Sub-lists of sub-lists keep their places while the list grows and shrinks through the innermost of
them: a mutation leaves alone what lies outside the window it works on, and the windows of the
sub-lists below contain that window.

* `Sequence.AgreeOutside`: two sequences differ within a window only.
* `Standard.agreeOutside_of_mutation`: so do the sequences before and after a command.
* `Standard.run_keeps_windows`: **every open sub-list stays in its place**, between the elements
  that were around it when it was opened.
-/

namespace WatchedContainers

variable {α : Type}

/-! ### Outside a window -/

namespace Sequence

def AgreeOutside (start tail : Nat) (s t : Sequence α) : Prop :=
  ∃ pre mid mid' suf, s = ⟨pre ++ mid ++ suf⟩ ∧ t = ⟨pre ++ mid' ++ suf⟩ ∧
    pre.length = start ∧ suf.length = tail

namespace AgreeOutside

variable {s t u : Sequence α} {start tail start' tail' : Nat}

theorem refl (h : start + tail ≤ s.items.length) : AgreeOutside start tail s s := by
  obtain ⟨pre, mid, suf, rfl, hpre, hsuf⟩ := exists_middle s start tail h
  exact ⟨pre, mid, mid, suf, rfl, rfl, hpre.symm, hsuf.symm⟩

theorem zero (s t : Sequence α) : AgreeOutside 0 0 s t :=
  ⟨[], s.items, t.items, [], by simp, by simp, rfl, rfl⟩

theorem trans (h : AgreeOutside start tail s t) (h' : AgreeOutside start tail t u) :
    AgreeOutside start tail s u := by
  obtain ⟨pre, mid, mid', suf, hs, ht, hpre, hsuf⟩ := h
  obtain ⟨pre', mid₁, mid₂, suf', ht', hu, hpre', hsuf'⟩ := h'
  have hitems := congrArg Sequence.items (ht.symm.trans ht')
  obtain ⟨hfront, rfl⟩ := List.append_inj' hitems (hsuf.trans hsuf'.symm)
  obtain ⟨rfl, -⟩ := List.append_inj hfront (hpre.trans hpre'.symm)
  exact ⟨pre, mid, mid₂, suf, hs, hu, hpre, hsuf⟩

theorem mono (h : AgreeOutside start' tail' s t) (hstart : start ≤ start') (htail : tail ≤ tail') :
    AgreeOutside start tail s t := by
  obtain ⟨pre, mid, mid', suf, rfl, rfl, rfl, rfl⟩ := h
  refine ⟨pre.take start, pre.drop start ++ mid ++ suf.take (suf.length - tail),
    pre.drop start ++ mid' ++ suf.take (suf.length - tail), suf.drop (suf.length - tail),
    ?_, ?_, ?_, ?_⟩
  · rw [← List.append_assoc, ← List.append_assoc, List.take_append_drop, List.append_assoc (_ ++ _),
      List.take_append_drop]
  · rw [← List.append_assoc, ← List.append_assoc, List.take_append_drop, List.append_assoc (_ ++ _),
      List.take_append_drop]
  · rw [List.length_take]
    omega
  · rw [List.length_drop]
    omega

theorem inside (h : AgreeOutside start tail s t) : start + tail ≤ t.items.length := by
  obtain ⟨pre, mid, mid', suf, -, rfl, rfl, rfl⟩ := h
  simp only [List.length_append]
  omega

/-- The window changes, and what a larger window shows around it stays. -/
theorem window_eq (h : AgreeOutside start' tail' s t) (hstart : start ≤ start')
    (htail : tail ≤ tail') :
    t.window start tail =
      (s.window start tail).take (start' - start) ++ t.window start' tail' ++
        (s.window start tail).drop ((s.window start tail).length - (tail' - tail)) := by
  obtain ⟨pre, mid, mid', suf, rfl, rfl, rfl, rfl⟩ := h
  obtain ⟨outer, inner, rfl, rfl⟩ : ∃ outer inner, pre = outer ++ inner ∧ outer.length = start :=
    ⟨pre.take start, pre.drop start, (List.take_append_drop ..).symm, by
      rw [List.length_take]
      omega⟩
  obtain ⟨inner', outer', rfl, rfl⟩ :
      ∃ inner' outer', suf = inner' ++ outer' ∧ outer'.length = tail :=
    ⟨suf.take (suf.length - tail), suf.drop (suf.length - tail), (List.take_append_drop ..).symm, by
      rw [List.length_drop]
      omega⟩
  have hwindow : ∀ m : List α,
      Sequence.window outer.length outer'.length ⟨outer ++ inner ++ m ++ (inner' ++ outer')⟩ =
        inner ++ m ++ inner' := by
    intro m
    have := window_middle outer (inner ++ m ++ inner') outer'
    simpa only [List.append_assoc] using this
  rw [hwindow, hwindow, window_middle]
  have hfront : (outer ++ inner).length - outer.length = inner.length := by
    rw [List.length_append, Nat.add_sub_cancel_left]
  have hback : (inner ++ mid ++ inner').length - ((inner' ++ outer').length - outer'.length) =
      (inner ++ mid).length := by
    simp only [List.length_append]
    omega
  rw [hfront, hback, List.drop_left, List.append_assoc inner mid, List.take_left]

end AgreeOutside

theorem agreeOutside_of_within {start tail : Nat} {s : Sequence α}
    {f : Sequence α → Except Error (Mutation (Sequence α) α)} {m : Mutation (Sequence α) α}
    (h : start + tail ≤ s.items.length) (hm : within start tail f s = .ok m) :
    AgreeOutside start tail s m.container := by
  obtain ⟨m₀, -, rfl⟩ := exists_of_within hm
  obtain ⟨pre, mid, suf, rfl, rfl, rfl⟩ := exists_middle s start tail h
  exact ⟨pre, mid, m₀.container.items, suf, rfl, splice_middle pre mid suf _, rfl, rfl⟩

end Sequence

/-! ### Stacks of frames -/

section Stacks

variable {C κ : Type} {frames frames' l : List (Frame κ α)}

theorem Session.Served.of_suffix {w : HeardWorld α} {root : Watched C}
    (h : Session.Served w root frames) (hl : l <:+ frames) : Session.Served w root l := by
  induction frames with
  | nil =>
    obtain rfl := List.suffix_nil.1 hl
    exact h
  | cons f rest ih =>
    rcases List.suffix_cons_iff.1 hl with rfl | hl
    · exact h
    · exact ih h.2 hl

theorem Standard.Fits.of_suffix {k : Standard α C κ} {c : C} (h : k.Fits c frames)
    (hl : l <:+ frames) : k.Fits c l := by
  induction frames with
  | nil =>
    obtain rfl := List.suffix_nil.1 hl
    exact h
  | cons f rest ih =>
    rcases List.suffix_cons_iff.1 hl with rfl | hl
    · exact h
    · exact ih h.tail hl

/-- What is open above a view leaves out at least what the view leaves out. -/
theorem Nested.flanks_le (h : Nested frames) (hl : l <:+ frames) :
    (flanks l).1 ≤ (flanks frames).1 ∧ (flanks l).2 ≤ (flanks frames).2 := by
  induction frames with
  | nil =>
    obtain rfl := List.suffix_nil.1 hl
    exact ⟨Nat.le_refl _, Nat.le_refl _⟩
  | cons f rest ih =>
    rcases List.suffix_cons_iff.1 hl with rfl | hl
    · exact ⟨Nat.le_refl _, Nat.le_refl _⟩
    · obtain ⟨hstart, htail⟩ := ih h.2.2 hl
      exact ⟨Nat.le_trans hstart h.1, Nat.le_trans htail h.2.1⟩

/-- Sub-lists stay where they are when an iterator in front moves. -/
theorem Moved.suffix {v : SubList Unit} {rest : List (Frame κ α)} (h : Moved frames frames')
    (hl : .subList v :: rest <:+ frames) : .subList v :: rest <:+ frames' := by
  cases h with
  | refl => exact hl
  | iteration it it' ref rest' =>
    rcases List.suffix_cons_iff.1 hl with heq | hl
    · simp at heq
    · exact hl.trans (List.suffix_cons ..)
  | listIterator it it' ref rest' =>
    rcases List.suffix_cons_iff.1 hl with heq | hl
    · simp at heq
    · exact hl.trans (List.suffix_cons ..)

end Stacks

namespace Standard

variable [BEq α] {j : Judge α} {s s' : Session (Sequence α) PositionCursor α}
  {w w' : HeardWorld α}

/-- **A command changes nothing outside the window in front.** -/
theorem agreeOutside_of_mutation {frames : List (Frame PositionCursor α)} {command : Command α}
    {f : Sequence α → Except Error (Mutation (Sequence α) α)} {c : Sequence α}
    {m : Mutation (Sequence α) α} (h : sequence.Fits c frames)
    (hf : sequence.mutation? frames command = some f) (hm : f c = .ok m) :
    Sequence.AgreeOutside (flanks frames).1 (flanks frames).2 c m.container := by
  cases frames with
  | nil => exact .zero ..
  | cons g rest =>
    cases g with
    | subList v =>
      obtain ⟨f, -, rfl⟩ := Option.map_eq_some_iff.1 hf
      exact Sequence.agreeOutside_of_within h.inside hm
    | listIterator it ref =>
      obtain ⟨f, -, rfl⟩ := Option.map_eq_some_iff.1 hf
      exact Sequence.agreeOutside_of_within h.inside hm
    | sortedView v => exact .zero ..
    | iteration it ref => exact .zero ..

/-! ### Sub-lists that stay open -/

/-- The sub-list is still open, and the container differs from `c` within its window only. -/
structure Kept (v : SubList Unit) (rest : List (Frame PositionCursor α)) (c : Sequence α)
    (s : Session (Sequence α) PositionCursor α) : Prop where
  suffix : .subList v :: rest <:+ s.frames
  agree : Sequence.AgreeOutside v.segment.start v.segment.tail c s.container

theorem Step.kept [ObjectIdentity α] {a : Action α} {r : Except Error (Response α)}
    {v : SubList Unit} {rest : List (Frame PositionCursor α)} {c : Sequence α}
    (hs : sequence.Sound s w) (hstep : sequence.Step j s w a r s' w')
    (hdepth : rest.length < s'.frames.length) (h : Kept v rest c s) : Kept v rest c s' := by
  cases hstep with
  | failed => exact h
  | refused => exact h
  | answered => exact h
  | notOpened => exact h
  | accepted command f m hf hm hj =>
    obtain ⟨hstart, htail⟩ := hs.fits.nested.flanks_le h.suffix
    exact ⟨(moved_framesAfter ..).suffix h.suffix,
      h.agree.trans ((agreeOutside_of_mutation hs.fits hf hm).mono hstart htail)⟩
  | moved m x frames hmoved => exact ⟨hmoved.suffix h.suffix, h.agree⟩
  | opened o f w' hf => exact ⟨h.suffix.trans (List.suffix_cons ..), h.agree⟩
  | closed f frames hframes =>
    have hsuffix := h.suffix
    simp only [hframes] at hsuffix
    rcases List.suffix_cons_iff.1 hsuffix with heq | hsuffix
    · obtain ⟨-, rfl⟩ := List.cons.inj heq
      exact absurd hdepth (Nat.lt_irrefl _)
    · exact ⟨hsuffix, h.agree⟩

/-- A sub-list that was opened covers the requested positions of the segment in front. -/
theorem Sound.subList_opened [ObjectIdentity α] {start stop : Nat} (hs : sequence.Sound s w)
    (h : sequence.act j.observers (.openFrame (.subList start stop)) s w =
      some (.ok .nothing, s', w')) :
    stop ≤ s.container.items.length - (flanks s.frames).1 - (flanks s.frames).2 ∧
      ∃ v : SubList Unit, s' = s.push (.subList v) ∧
        v.segment = ⟨(), (flanks s.frames).1 + start, (flanks s.frames).2 +
          (s.container.items.length - (flanks s.frames).1 - (flanks s.frames).2 - stop)⟩ := by
  obtain ⟨⟨f, w₁⟩, hopen, h⟩ := Option.map_eq_some_iff.1 h
  cases f with
  | error e => cases h
  | ok f =>
    obtain ⟨x, hx, hopen⟩ := Option.map_eq_some_iff.1 hopen
    obtain ⟨rfl, -, -⟩ := segment?_cases hs.fits.views hx
    have hf : (SubList.openIn j.observers s.handler ⟨s.container, (flanks s.frames).1,
        (flanks s.frames).2⟩ start stop w).1.map Frame.ofSubList = .ok f := (Prod.mk.inj hopen).1
    rw [hs.attached.openSubList j rfl] at hf
    split at hf
    · simp [Except.map] at hf
    next hstop =>
      split at hf
      · simp [Except.map] at hf
      · split at hf
        · simp [Except.map] at hf
        · obtain rfl := Except.ok.inj hf
          cases h
          exact ⟨Nat.not_lt.1 hstop, _, rfl, rfl⟩

/-! ### Sub-lists in their places -/

/-- The part of the list that is in front of the frames: a sub-list, or the list itself. -/
def shown (s : Session (Sequence α) PositionCursor α) (frames : List (Frame PositionCursor α)) :
    Segment (Sequence α) := ⟨s.container, (flanks frames).1, (flanks frames).2⟩

/-- The sub-list `v` lies in the list, and in the part of it that is in front of `rest`. -/
structure InPlace (s : Session (Sequence α) PositionCursor α) (w : HeardWorld α)
    (v : SubList Unit) (rest : List (Frame PositionCursor α)) : Prop where
  inside : v.segment.start + v.segment.tail ≤ s.container.items.length
  offset_eq : (w.handler v.handler).viewOffset = v.segment.start
  start_le : (flanks rest).1 ≤ v.segment.start
  tail_le : (flanks rest).2 ≤ v.segment.tail
  values_eq : ∃ front back,
    (shown s rest).values = front ++ (shown s (.subList v :: rest)).values ++ back ∧
      front.length = v.segment.start - (flanks rest).1 ∧
      back.length = v.segment.tail - (flanks rest).2

/-- The sub-list `v`, opened from `start` to `stop` in front of `here`, is open in `there`, between
the elements that were around it then. -/
structure Encloses (here there : Session (Sequence α) PositionCursor α) (v : SubList Unit)
    (start stop : Nat) : Prop where
  suffix : .subList v :: here.frames <:+ there.frames
  values_eq : (shown there here.frames).values =
    (shown here here.frames).values.take start ++
      (shown there (.subList v :: here.frames)).values ++
      (shown here here.frames).values.drop stop
  length_eq : (shown there here.frames).length =
    start + (shown there (.subList v :: here.frames)).length +
      ((shown here here.frames).length - stop)

theorem inPlace_of_sound {v : SubList Unit} {rest : List (Frame PositionCursor α)}
    (hs : sequence.Sound s w) (hv : .subList v :: rest <:+ s.frames) : InPlace s w v rest := by
  have hfits := hs.fits.of_suffix hv
  have hinside : v.segment.start + v.segment.tail ≤ s.container.items.length := hfits.inside
  have hstart : (flanks rest).1 ≤ v.segment.start := hfits.nested.1
  have htail : (flanks rest).2 ≤ v.segment.tail := hfits.nested.2.1
  have hwindow := (Sequence.AgreeOutside.refl hinside).window_eq hstart htail
  have hlen := s.container.length_window (flanks rest).1 (flanks rest).2
  refine ⟨hinside, (hs.served.of_suffix hv).1.offset_eq.symm, hstart, htail, ?_⟩
  rw [Segment.values_eq_window _ hfits.tail.inside, Segment.values_eq_window _ hinside]
  refine ⟨_, _, hwindow, ?_, ?_⟩
  · rw [List.length_take, hlen]
    omega
  · rw [List.length_drop, hlen]
    omega

/-- A sub-list that was kept open lies between the elements that were around it. -/
theorem encloses_of_kept {v : SubList Unit} {start stop : Nat} (hs : sequence.Sound s w)
    (hs' : sequence.Sound s' w')
    (hstop : stop ≤ s.container.items.length - (flanks s.frames).1 - (flanks s.frames).2)
    (hv : v.segment = ⟨(), (flanks s.frames).1 + start, (flanks s.frames).2 +
      (s.container.items.length - (flanks s.frames).1 - (flanks s.frames).2 - stop)⟩)
    (hkept : Kept v s.frames s.container s') : Encloses s s' v start stop := by
  have hfits := hs'.fits.of_suffix hkept.suffix
  have hagree := hkept.agree
  have hinside := hagree.inside
  have houter : (flanks s.frames).1 + (flanks s.frames).2 ≤ s.container.items.length :=
    hs.fits.inside
  have houter' : (flanks s.frames).1 + (flanks s.frames).2 ≤ s'.container.items.length :=
    hfits.tail.inside
  have hstart : v.segment.start = (flanks s.frames).1 + start := by rw [hv]
  have htail : v.segment.tail = (flanks s.frames).2 +
      (s.container.items.length - (flanks s.frames).1 - (flanks s.frames).2 - stop) := by rw [hv]
  refine ⟨hkept.suffix, ?_, ?_⟩
  · rw [Segment.values_eq_window _ houter', Segment.values_eq_window _ houter,
      Segment.values_eq_window _ hinside]
    have hstart' : (flanks s.frames).1 ≤ v.segment.start := hstart ▸ Nat.le_add_right ..
    have htail' : (flanks s.frames).2 ≤ v.segment.tail := htail ▸ Nat.le_add_right ..
    have hwindow := hagree.window_eq hstart' htail'
    rw [Sequence.length_window] at hwindow
    have hfront : v.segment.start - (flanks s.frames).1 = start := by omega
    have hback : s.container.items.length - (flanks s.frames).1 - (flanks s.frames).2 -
        (v.segment.tail - (flanks s.frames).2) = stop := by omega
    rw [hfront, hback] at hwindow
    exact hwindow
  · change s'.container.items.length - (flanks s.frames).1 - (flanks s.frames).2 =
      start + (s'.container.items.length - v.segment.start - v.segment.tail) +
        (s.container.items.length - (flanks s.frames).1 - (flanks s.frames).2 - stop)
    omega

theorem act_close [ObjectIdentity α] {f : Frame PositionCursor α}
    {rest : List (Frame PositionCursor α)} (h : s.frames = f :: rest) :
    sequence.act j.observers .close s w = some (.ok .nothing, { s with frames := rest }, w) := by
  obtain ⟨root, frames⟩ := s
  obtain rfl : frames = f :: rest := h
  rfl

/-- **Every open sub-list stays in its place.**  In every state it lies in the list and within the
sub-list it was opened on, where its handler says it starts.  As long as it is open, it stands
between the elements that were around it when it was opened; when it is closed, this is what is in
front again. -/
theorem run_keeps_windows [ObjectIdentity α] (j : Judge α) {c : Watched (Sequence α)}
    {w : HeardWorld α} (hc : w.Presides c.handler c.id) (actions : List (Action α)) :
    let here := sequence.run j actions c.session w
    (∀ v rest, .subList v :: rest <:+ here.session.frames →
      InPlace here.session here.world v rest) ∧
    ∀ start stop s₁ w₁,
      sequence.act j.observers (.openFrame (.subList start stop)) here.session here.world =
        some (.ok .nothing, s₁, w₁) →
      ∃ v, s₁ = here.session.push (.subList v) ∧ ∀ more,
        let there := sequence.run j more s₁ w₁
        (∀ t ∈ there.turns, here.session.frames.length < t.after.frames.length) →
        Encloses here.session there.session v start stop ∧
          (there.session.frames = .subList v :: here.session.frames →
            sequence.act j.observers .close there.session there.world =
              some (.ok .nothing, { there.session with frames := here.session.frames },
                there.world)) := by
  have hhere := (sequence.sound_session hc).run (j := j) actions
  refine ⟨fun v rest hv => inPlace_of_sound hhere hv, ?_⟩
  intro start stop s₁ w₁ hact
  obtain ⟨hstop, v, rfl, hv⟩ := hhere.subList_opened hact
  refine ⟨v, rfl, ?_⟩
  intro more there hdepth
  have hopened := (hhere.step hact).sound hhere
  have hkept : Kept v _ _ there.session :=
    run_induction (motive := fun s _ => Kept v _ _ s)
      (fun t ht hdepth h => ht.step.kept ht.sound hdepth h) more hopened hdepth
      ⟨List.suffix_rfl, .refl hopened.fits.inside⟩
  exact ⟨encloses_of_kept hhere (hopened.run more) hstop hv hkept, act_close⟩

/-- A sub-list of a sub-list grows between the elements around it. -/
theorem run_keeps_windows_growing :
    let k : Standard Int (Sequence Int) PositionCursor := .sequence
    let outer := k.run .always [.openFrame (.subList 1 4)]
      (Watched.alone ⟨[1, 2, 3, 4, 5]⟩).session k.world
    let inner := k.run .always [.openFrame (.subList 1 2)] outer.session outer.world
    let grown := k.run .always [.command (.add 9)] inner.session inner.world
    grown.session.container.items = [1, 2, 3, 9, 4, 5] ∧
      ∃ v, Encloses outer.session grown.session v 1 2 := by
  refine ⟨by decide +kernel, ?_⟩
  have hc := presides_world (sequence : Standard Int _ _) ⟨[1, 2, 3, 4, 5]⟩
  obtain ⟨v, -, h⟩ :=
    (run_keeps_windows .always hc [.openFrame (.subList 1 4)]).2 1 2 _ _ (act_of_run rfl)
  exact ⟨v, (h [.command (.add 9)] (by decide +kernel)).1⟩

end Standard

end WatchedContainers
