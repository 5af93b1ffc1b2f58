import WatchedContainers.Proofs.Restriction
import WatchedContainers.Proofs.Run
import WatchedContainers.Watched.Request

/-!
# Views show what was requested

The bounds of a view are the tighter ones of what it was opened on and of what was requested.  So
all requests count alike, and reading the view filters the set by all of them.

* `Bounds.contains_intersect`: an intersection contains what both ranges contain.
* `SortedSet.within?_eq`, `SortedSet.next?_eq`: **no reading is refused**, and none is missed out by
  the check that comes before it (`Bounds.isOrdered_of_contains`).
* `Standard.Requested.turn`: what is open stays what was requested, turn by turn.
* `Standard.run_filters`: **a view shows the elements that satisfy every request.**
-/

namespace WatchedContainers

variable {α : Type} [Ord α] [Std.TransOrd α]

/-! ### Intersections -/

namespace Bound

section Sides

/-- Whether a bound allows a value that compares like this with the values around. -/
def admits (b : Bound α) (cmp : α → Ordering) : Bool :=
  match b with
  | included x => (cmp x).isLE
  | excluded x => cmp x == .lt
  | unbounded => true

omit [Ord α] [Std.TransOrd α]

variable {a b : Bound α} {x y : α} {cmp : α → Ordering}

theorem eq_unbounded (h : b.value? = none) : b = unbounded := by
  cases b with
  | included z => cases h
  | excluded z => cases h
  | unbounded => rfl

/-- A bound decides if what it allows lies strictly inside the other one. -/
theorem admits_of_inside (ha : a.value? = some x) (hb : b.value? = some y)
    (hinside : (cmp x).isLE → cmp y = .lt) (h : a.admits cmp) : b.admits cmp := by
  have hle : (cmp x).isLE := by
    cases a with
    | included z =>
      obtain rfl := Option.some.inj ha
      exact h
    | excluded z =>
      obtain rfl := Option.some.inj ha
      exact Ordering.isLE_of_eq_lt (by simpa [admits] using h)
    | unbounded => cases ha
  cases b with
  | included z =>
    obtain rfl := Option.some.inj hb
    exact Ordering.isLE_of_eq_lt (hinside hle)
  | excluded z =>
    obtain rfl := Option.some.inj hb
    simp [admits, hinside hle]
  | unbounded => rfl

/-- Of two bounds at the same place, one that is excluded decides. -/
theorem admits_of_same (ha : a.value? = some x) (hb : b.value? = some y) (hsame : cmp x = cmp y)
    (hexcluded : a.isExcluded ∨ b.isExcluded = false) (h : a.admits cmp) : b.admits cmp := by
  cases a with
  | excluded z =>
    have hlt : cmp y = .lt := by
      obtain rfl := Option.some.inj ha
      rw [← hsame]
      simpa [admits] using h
    exact admits_of_inside ha hb (fun _ => hlt) h
  | included z =>
    obtain rfl := Option.some.inj ha
    cases b with
    | included z' =>
      obtain rfl := Option.some.inj hb
      rwa [admits, hsame] at h
    | excluded z' => simp [isExcluded] at hexcluded
    | unbounded => rfl
  | unbounded => cases ha

theorem and_eq_left {p q : Bool} (h : p → q) : (p && q) = p := by
  cases p with
  | false => rfl
  | true => rw [h rfl, Bool.and_true]

theorem and_eq_right {p q : Bool} (h : q → p) : (p && q) = q := by
  rw [Bool.and_comm, and_eq_left h]

end Sides

variable (a b : Bound α) (v : α)

omit [Std.TransOrd α] in
theorem allowsFrom_eq : a.allowsFrom v = a.admits (compare · v) := by
  cases a <;> rfl

omit [Std.TransOrd α] in
theorem allowsTo_eq : a.allowsTo v = a.admits (compare v ·) := by
  cases a <;> rfl

/-- **The tighter one of two lower bounds** allows what both allow. -/
theorem allowsFrom_meetLower :
    (a.meetLower b).allowsFrom v = (a.allowsFrom v && b.allowsFrom v) := by
  simp only [allowsFrom_eq]
  unfold meetLower
  split
  next hb => rw [eq_unbounded hb, admits.eq_def unbounded, Bool.and_true]
  next ha _ => rw [eq_unbounded ha, admits.eq_def unbounded, Bool.true_and]
  next x y ha hb =>
    split
    next hgt =>
      have hyx : compare y x = .lt := Std.OrientedCmp.lt_of_gt hgt
      exact (and_eq_left (admits_of_inside ha hb (Std.TransCmp.lt_of_lt_of_isLE hyx))).symm
    next hxy =>
      exact (and_eq_right (admits_of_inside hb ha (Std.TransCmp.lt_of_lt_of_isLE hxy))).symm
    next heq =>
      have hsame : compare x v = compare y v := Std.TransCmp.congr_left heq
      split
      next hex => exact (and_eq_left (admits_of_same ha hb hsame (.inl hex))).symm
      next hex =>
        exact (and_eq_right (admits_of_same hb ha hsame.symm (.inr (by simpa using hex)))).symm

/-- **The tighter one of two upper bounds** allows what both allow. -/
theorem allowsTo_meetUpper : (a.meetUpper b).allowsTo v = (a.allowsTo v && b.allowsTo v) := by
  simp only [allowsTo_eq]
  unfold meetUpper
  split
  next hb => rw [eq_unbounded hb, admits.eq_def unbounded, Bool.and_true]
  next ha _ => rw [eq_unbounded ha, admits.eq_def unbounded, Bool.true_and]
  next x y ha hb =>
    split
    next hxy =>
      refine (and_eq_left (admits_of_inside ha hb fun h => ?_)).symm
      exact Std.TransCmp.lt_of_isLE_of_lt h hxy
    next hgt =>
      refine (and_eq_right (admits_of_inside hb ha fun h => ?_)).symm
      exact Std.TransCmp.lt_of_isLE_of_lt h (Std.OrientedCmp.lt_of_gt hgt)
    next heq =>
      have hsame : compare v x = compare v y := Std.TransCmp.congr_right heq
      split
      next hex => exact (and_eq_left (admits_of_same ha hb hsame (.inl hex))).symm
      next hex =>
        exact (and_eq_right (admits_of_same hb ha hsame.symm (.inr (by simpa using hex)))).symm

end Bound

namespace Bounds

/-- **An intersection contains what both ranges contain.** -/
theorem contains_intersect (a b : Bounds α) (v : α) :
    (a.intersect b).contains v = (a.contains v && b.contains v) := by
  simp only [contains, intersect, Bound.allowsFrom_meetLower, Bound.allowsTo_meetUpper]
  ac_rfl

/-- The check that comes before a query misses out no range with a value in it. -/
theorem isOrdered_of_contains {b : Bounds α} {v : α} (h : b.contains v) : b.isOrdered := by
  cases hb : b.isOrdered with
  | true => rfl
  | false =>
    rw [contains_eq_false hb] at h
    cases h

end Bounds

/-! ### Readings -/

namespace SortedSet

variable (s : SortedSet α) (b : Bounds α)

omit [Std.TransOrd α] in
/-- **No reading of a range is refused.** -/
theorem within?_eq : s.within? b = some (s.within b) := by
  unfold within? within
  split
  next hb => rw [s.range?_eq hb, Option.getD_some]
  next => rfl

omit [Std.TransOrd α] in
theorem sizeWithin?_eq : s.sizeWithin? b = some (s.sizeWithin b) := by
  unfold sizeWithin? sizeWithin
  split
  next hb => rw [s.range?_eq hb, Option.getD_some, Option.map_some]
  next => rfl

omit [Std.TransOrd α] in
/-- **No step of a cursor is refused.** -/
theorem next?_eq (cur : ResumingCursor α) : next? cur s = some (next cur s) :=
  congrArg (Option.map _) (s.within?_eq cur.rest)

/-- **A view is read by a filter.** -/
theorem rangeAnswer?_eq (q : Query α) :
    Session.rangeAnswer? (⟨s, b⟩ : SubRange (SortedSet α) α) q =
      s.filteredAnswer? b.contains q := by
  have hvalues : (⟨s, b⟩ : SubRange (SortedSet α) α).values = s.items.filter b.contains :=
    s.within_eq b
  have hlength : (⟨s, b⟩ : SubRange (SortedSet α) α).length = (s.items.filter b.contains).length :=
    s.sizeWithin_eq b
  cases q with
  | size => simp only [Session.rangeAnswer?, filteredAnswer?, hlength]
  | isEmpty =>
    simp only [Session.rangeAnswer?, filteredAnswer?, SubRange.isEmpty, hlength]
    cases s.items.filter b.contains <;> rfl
  | contains v =>
    have hcontains : (s.items.filter b.contains).any (fun x => compare v x == .eq) =
        (b.contains v && s.contains v) := contains_restrict b s v
    simp only [Session.rangeAnswer?, filteredAnswer?, hcontains]
    rfl
  | values => simp only [Session.rangeAnswer?, filteredAnswer?, hvalues]
  | first => simp only [Session.rangeAnswer?, filteredAnswer?, SubRange.first, hvalues]
  | last => simp only [Session.rangeAnswer?, filteredAnswer?, SubRange.last, hvalues]
  | _ => rfl

end SortedSet

/-! ### Requests -/

section Requests

omit [Std.TransOrd α]

variable {C κ : Type}

/-- The views that are open lie within each other as they were requested, and iterations were not
requested at all. -/
inductive Requested : List (Option (Bounds α)) → List (Frame κ α) → Prop
  | nil : Requested [] []
  | view {opened : List (Option (Bounds α))} {frames : List (Frame κ α)} {b : Bounds α}
      {v : SortedView Unit α} (h : Requested opened frames)
      (hv : v.range.bounds = (boundsOf frames).intersect b) :
      Requested (some b :: opened) (.sortedView v :: frames)
  | iteration {opened : List (Option (Bounds α))} {frames : List (Frame κ α)}
      {it : Iteration Unit κ α} {ref : HandlerRef} (h : Requested opened frames) :
      Requested (none :: opened) (.iteration it ref :: frames)

namespace Requested

variable {opened : List (Option (Bounds α))} {frames frames' : List (Frame κ α)}

theorem of_moved (h : Requested opened frames) (hm : Moved frames frames') :
    Requested opened frames' := by
  cases hm with
  | refl => exact h
  | iteration =>
    cases h with
    | iteration h => exact .iteration h
  | listIterator => cases h

theorem tail (h : Requested opened frames) : Requested opened.tail frames.tail := by
  cases h with
  | nil => exact .nil
  | view h => exact h
  | iteration h => exact h

end Requested

end Requests

/-- **A view contains what satisfies every request.** -/
theorem Requested.contains_boundsOf {κ : Type} {opened : List (Option (Bounds α))}
    {frames : List (Frame κ α)} (h : Requested opened frames) (hviews : ∀ f ∈ frames, f.isView)
    (x : α) : (boundsOf frames).contains x = (opened.filterMap id).all (·.contains x) := by
  induction h with
  | nil => rfl
  | @view opened frames b v h hv ih =>
    have hrest := ih fun f hf => hviews f (List.mem_cons_of_mem _ hf)
    rw [boundsOf, hv, Bounds.contains_intersect, hrest, Bool.and_comm]
    simp
  | iteration => exact absurd (hviews _ List.mem_cons_self) (by simp [Frame.isView])

/-! ### Openings -/

section Openings

omit [Std.TransOrd α]

variable {ρ σ C κ : Type} [Collection C α] [Traversal C κ α] [Sorted C κ α]
  {obs : Observers ρ σ α} {parent : HandlerRef} {x : SubRange C α} {b : Bounds α} {start stop : α}
  {w w' : World ρ σ} {v : SortedView C α}

theorem SortedView.bounds_of_openIn (h : openIn obs parent x b w = (.ok v, w')) :
    v.range.bounds = x.bounds.intersect b := by
  unfold openIn at h
  split at h
  · cases h
  · dsimp only at h
    split at h
    · cases h
    · obtain ⟨hv, -⟩ := Prod.mk.inj h
      obtain rfl := Except.ok.inj hv
      rfl

theorem SortedView.bounds_of_openBetween
    (h : openBetween obs parent x start stop w = (.ok v, w')) :
    v.range.bounds = x.bounds.intersect ⟨.included start, .excluded stop⟩ := by
  unfold openBetween at h
  split at h
  · cases h
  · exact bounds_of_openIn h

omit [Collection C α] [Traversal C κ α] [Sorted C κ α] in
theorem bounds_of_range? {s : Session C κ α} (h : s.range? = some x) :
    x.bounds = boundsOf s.frames := by
  obtain ⟨root, frames⟩ := s
  cases frames with
  | nil =>
    obtain rfl := Option.some.inj h
    rfl
  | cons f rest =>
    cases f with
    | sortedView v =>
      obtain rfl := Option.some.inj h
      rfl
    | subList v => cases h
    | iteration it ref => cases h
    | listIterator it ref => cases h

end Openings

namespace Standard

variable [BEq α] {j : Judge α} {s s' : Session (SortedSet α) (ResumingCursor α) α}
  {w w' : HeardWorld α} {opened : List (Option (Bounds α))}

/-- What is opened on a sorted set is a view with the bounds requested of it, or an iteration. -/
theorem requested_of_open? {o : Opening α} {f : Frame (ResumingCursor α) α}
    (h : Requested opened s.frames)
    (hopen : sortedSet.open? j.observers o s w = some (.ok f, w')) :
    Requested (o.requested? :: opened) (f :: s.frames) := by
  cases o with
  | range b =>
    obtain ⟨x, hx, hopen⟩ := Option.map_eq_some_iff.1 hopen
    obtain ⟨v, hv, rfl⟩ := opened_of_map (x := SortedView.openIn _ s.handler x b w) hopen
    exact .view h ((SortedView.bounds_of_openIn hv).trans (bounds_of_range? hx ▸ rfl))
  | subSet start stop =>
    obtain ⟨x, hx, hopen⟩ := Option.map_eq_some_iff.1 hopen
    obtain ⟨v, hv, rfl⟩ :=
      opened_of_map (x := SortedView.openBetween _ s.handler x start stop w) hopen
    exact .view h ((SortedView.bounds_of_openBetween hv).trans (bounds_of_range? hx ▸ rfl))
  | iteration =>
    obtain ⟨it, -, hopen⟩ := Option.map_eq_some_iff.1 hopen
    obtain rfl := Except.ok.inj (Prod.mk.inj hopen).1
    exact .iteration h
  | subList start stop => cases hopen
  | listIterator => cases hopen

theorem answer?_sortedView {v : SortedView Unit α} {rest : List (Frame (ResumingCursor α) α)}
    (hv : s.frames = .sortedView v :: rest) (q : Query α) :
    sortedSet.answer? q s = Session.rangeAnswer? (v.range.over s.container) q := by
  obtain ⟨root, frames⟩ := s
  obtain rfl : frames = _ := hv
  rfl

variable [ObjectIdentity α]

/-- **What is open stays what was requested**, turn by turn. -/
theorem Requested.turn {a : Action α} {r : Except Error (Response α)}
    (h : Requested opened s.frames) (hs : sortedSet.Sound s w)
    (hact : sortedSet.act j.observers a s w = some (r, s', w')) :
    Requested ((⟨a, s, w, r, s', w'⟩ : Turn _ _ α).stack opened) s'.frames := by
  cases a with
  | openFrame o =>
    obtain ⟨⟨f, w₁⟩, hf, hact⟩ := Option.map_eq_some_iff.1 hact
    cases f with
    | error e =>
      cases hact
      exact h
    | ok f =>
      cases hact
      exact requested_of_open? h hf
  | close =>
    cases hs.step hact with
    | closed f rest hrest =>
      have htail := h.tail
      rw [hrest] at htail
      exact htail
  | command command =>
    cases hs.step hact with
    | failed => exact h
    | refused => exact h
    | accepted => exact h.of_moved (moved_framesAfter ..)
  | query q =>
    cases hs.step hact with
    | answered => exact h
  | move m =>
    cases hs.step hact with
    | moved m v frames hmoved => exact h.of_moved hmoved

/-- **What is open is what was requested**, after any run. -/
theorem Requested.run (h : Requested opened s.frames) (hs : sortedSet.Sound s w)
    (actions : List (Action α)) :
    Requested ((sortedSet.run j actions s w).turns.foldl (fun opened t => t.stack opened) opened)
      (sortedSet.run j actions s w).session.frames := by
  induction actions generalizing opened s w with
  | nil => exact h
  | cons a rest ih =>
    rw [Standard.run]
    cases hact : sortedSet.act j.observers a s w with
    | none => exact ih h hs
    | some x =>
      obtain ⟨r, s', w'⟩ := x
      exact ih (Requested.turn h hs hact) ((hs.step hact).sound hs)

/-- **A view shows the elements that satisfy every request.**  What it is opened on, and what was
requested there, counts as much as what is requested of it.  No reading of any range, and no step of
any cursor, is refused by the set; the check that comes before it lets all ranges pass that have an
element in them. -/
theorem run_filters {c : Watched (SortedSet α)} {w : HeardWorld α}
    (hc : w.Presides c.handler c.id) (j : Judge α) (actions : List (Action α))
    {v : SortedView Unit α} {rest : List (Frame (ResumingCursor α) α)}
    (hv : (sortedSet.run j actions c.session w).session.frames = .sortedView v :: rest) :
    let here := sortedSet.run j actions c.session w
    let set := here.session.container
    let inRange := fun x => here.requests.all (·.contains x)
    (∀ q, sortedSet.answer? q here.session = set.filteredAnswer? inRange q) ∧
      (set.items.filter inRange).Pairwise Precedes ∧
      (∀ b, set.within? b = some (set.within b) ∧ set.sizeWithin? b = some (set.sizeWithin b)) ∧
      (∀ cur, SortedSet.next? cur set = some (SortedSet.next cur set)) ∧
      ∀ (b : Bounds α) x, b.contains x → b.isOrdered := by
  intro here set inRange
  have hhere := (sortedSet.sound_session hc).run (j := j) actions
  have hviews : ∀ f ∈ here.session.frames, f.isView := by
    intro f hf
    have htail := hhere.fits.views
    rw [hv] at hf htail
    rcases List.mem_cons.1 hf with rfl | hf
    · rfl
    · exact htail f hf
  have hrequested :=
    Requested.run (j := j) (s := c.session) .nil (sortedSet.sound_session hc) actions
  have hcontains : v.range.bounds.contains = inRange := by
    funext x
    have hx := hrequested.contains_boundsOf hviews x
    rw [hv] at hx
    exact hx
  refine ⟨fun q => ?_, set.ascending.filter _, fun b => ⟨set.within?_eq b, set.sizeWithin?_eq b⟩,
    set.next?_eq, fun b x => b.isOrdered_of_contains⟩
  rw [answer?_sortedView hv, ← hcontains]
  exact set.rangeAnswer?_eq v.range.bounds q

/-- Views in a view: at equal values it is the excluded bound that counts, whichever view it was
requested of. -/
theorem run_filters_nested :
    let k : Standard Int (SortedSet Int) (ResumingCursor Int) := .sortedSet
    let here := k.run .always [.openFrame (.range ⟨.excluded 2, .included 5⟩),
      .openFrame (.headSet 5), .openFrame (.tailSet 2)]
      (Watched.alone ⟨[1, 2, 3, 4, 5, 6], by unfold Precedes; decide⟩).session k.world
    let inRange := fun x => here.requests.all (·.contains x)
    here.session.container.items.filter inRange = [3, 4] ∧
      (∀ q, k.answer? q here.session = here.session.container.filteredAnswer? inRange q) ∧
      here.session.container.within? ⟨.excluded 2, .excluded 2⟩ = some [] := by
  intro k here inRange
  have hrun := run_filters (v := ⟨⟨(), ⟨.excluded 2, .excluded 5⟩⟩, ⟨3⟩, ⟨4⟩⟩)
    (presides_world k ⟨[1, 2, 3, 4, 5, 6], by unfold Precedes; decide⟩) .always
    [.openFrame (.range ⟨.excluded 2, .included 5⟩), .openFrame (.headSet 5),
      .openFrame (.tailSet 2)] rfl
  exact ⟨by decide +kernel, hrun.1, (hrun.2.2.1 _).1.trans (by decide +kernel)⟩

end Standard

end WatchedContainers
