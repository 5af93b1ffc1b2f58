import WatchedContainers.Proofs.Lockstep
import WatchedContainers.Proofs.Restriction

/-!
# Views of a sorted set

A view of a sorted set, and an iteration over it, behave as a sorted set of the view's elements
would.  Both are outlooks on a set (`Outlook`), and what an action does at an outlook depends on the
elements within its bounds and on the iteration only.

* `Outlook.mutation?_session`, `Outlook.answer?_session`, `Outlook.move?_session`: what actions do
  at an outlook.
* `Outlook.respects_script`: what is owed to the bounds, turn by turn.
* `Standard.run_restricted`: **a script on a view is the script on a set of its elements**, and
  leaves the others alone.
-/

namespace WatchedContainers

variable {α : Type}

/-! ### Walks -/

/-- Where an iteration over a range stands. -/
structure Walk (α : Type) where
  last : Option α := none
  removable : Bool := false
  nextIndex : Nat := 0
  current : Option (Nat × α) := none

namespace Walk

def iteration (b : Bounds α) (size : Nat) (x : Walk α) : Iteration Unit (ResumingCursor α) α :=
  ⟨(), ⟨b, x.last, x.removable⟩, size, x.nextIndex, x.current⟩

def rest (x : Walk α) : Bounds α := ({ bounds := .all, last := x.last } : ResumingCursor α).rest

def resumed (x : Walk α) : Walk α :=
  match x.current with
  | some (i, _) => { x with removable := false, nextIndex := i, current := none }
  | none => x

variable [Ord α]

/-- All that the walk came past lies within the bounds. -/
structure IsWithin (b : Bounds α) (x : Walk α) : Prop where
  last : ∀ v, x.last = some v → b.contains v
  current : ∀ i v, x.current = some (i, v) → b.contains v

def next (s : SortedSet α) (x : Walk α) : Option α × Walk α :=
  match (s.items.filter x.rest.contains).head? with
  | some v => (some v, ⟨some v, true, x.nextIndex + 1, some (x.nextIndex, v)⟩)
  | none => (none, x)

variable {b : Bounds α} {x : Walk α}

theorem isWithin_start (b : Bounds α) : IsWithin b {} := by
  constructor
  · intro v hv
    cases hv
  · intro i v hv
    cases hv

theorem isWithin_all (x : Walk α) : x.IsWithin .all := by
  constructor
  · intro v _
    rfl
  · intro i v _
    rfl

theorem IsWithin.resumed (hx : x.IsWithin b) : x.resumed.IsWithin b := by
  unfold Walk.resumed
  split
  · refine ⟨hx.last, ?_⟩
    intro i v hv
    cases hv
  · exact hx

theorem IsWithin.next {s : SortedSet α} (hx : x.IsWithin b) :
    (x.next (s.restrict b)).2.IsWithin b := by
  unfold Walk.next
  split
  next v hv =>
    have hmem := (List.mem_filter.1 (List.mem_of_mem_head? hv)).1
    have hvb : b.contains v := (List.mem_filter.1 hmem).2
    constructor
    · intro y hy
      obtain rfl := Option.some.inj hy
      exact hvb
    · intro i y hy
      obtain ⟨-, rfl⟩ := Prod.mk.inj (Option.some.inj hy)
      exact hvb
  next => exact hx

variable [Std.TransOrd α]

/-- What is still to come of a walk over the range is still to come of the restricted set. -/
theorem filter_rest (hx : x.IsWithin b) (s : SortedSet α) :
    s.items.filter (ResumingCursor.mk b x.last x.removable).rest.contains =
      (s.restrict b).items.filter x.rest.contains := by
  obtain ⟨last, removable, n, current⟩ := x
  change _ = (s.items.filter b.contains).filter _
  rw [List.filter_filter]
  refine List.filter_congr ?_
  intro y _
  cases last with
  | none => exact (Bool.true_and _).symm
  | some v =>
    have hfrom : b.lower.allowsFrom v := (Bool.and_eq_true_iff.1 (hx.last v rfl)).1
    change (compare v y == .lt && b.upper.allowsTo y) =
      ((compare v y == .lt && true) && (b.lower.allowsFrom y && b.upper.allowsTo y))
    cases hc : compare v y with
    | lt => rw [Bound.allowsFrom_of_lt hfrom hc, Bool.and_true, Bool.true_and]
    | eq => rfl
    | gt => rfl

/-- **An iteration over a range** steps along the elements of the restricted set. -/
theorem next_iteration (hx : x.IsWithin b) (s : SortedSet α) (n : Nat) :
    ((x.iteration b n).over s).next =
      ((x.next (s.restrict b)).1, ((x.next (s.restrict b)).2.iteration b n).over s) := by
  have hrest := filter_rest hx s
  cases hl : (s.restrict b).items.filter x.rest.contains with
  | nil =>
    have hnext : Traversal.next ((x.iteration b n).over s).cursor
        ((x.iteration b n).over s).container = (none, ((x.iteration b n).over s).cursor) :=
      SortedSet.next_eq_none (hrest.trans hl)
    rw [Iteration.next, hnext, next, hl]
    rfl
  | cons v l =>
    have hnext : Traversal.next ((x.iteration b n).over s).cursor
        ((x.iteration b n).over s).container =
          (some v, ((x.iteration b n).over s).cursor.produce v) :=
      SortedSet.next_eq_some (hrest.trans hl)
    rw [Iteration.next, hnext, next, hl]
    rfl

end Walk

/-! ### Outlooks -/

/-- A sorted set, or a view of one, without its elements. -/
structure Outlook (α : Type) where
  handler : HandlerRef
  id : ContainerId
  bounds : Bounds α
  frames : List (Frame (ResumingCursor α) α)
  isOutlook : (frames = [] ∧ bounds = .all) ∨
    ∃ v rest, frames = .sortedView v :: rest ∧ v.range.bounds = bounds

namespace Outlook

def alone (α : Type) (handler : HandlerRef) (id : ContainerId) : Outlook α :=
  ⟨handler, id, .all, [], .inl ⟨rfl, rfl⟩⟩

def front (p : Outlook α) : HandlerRef :=
  match p.frames with
  | [] => p.handler
  | f :: _ => f.handler

variable [Ord α] (p : Outlook α)

def root (s : SortedSet α) : Watched (SortedSet α) := ⟨s, p.handler, p.id⟩

def seat : Seat := Session.seatOf (p.root .empty) p.frames

def session (s : SortedSet α) : Option (Walk α) → Session (SortedSet α) (ResumingCursor α) α
  | none => ⟨p.root s, p.frames⟩
  | some x => ⟨p.root s, .iteration (x.iteration p.bounds s.items.length) p.front :: p.frames⟩

def Holds (walk : Option (Walk α)) : Prop := ∀ x ∈ walk, x.IsWithin p.bounds

theorem holds_none : p.Holds none := by
  intro x hx
  cases hx

variable {p} in
theorem holds_some {x : Walk α} (hx : x.IsWithin p.bounds) : p.Holds (some x) := by
  intro y hy
  obtain rfl := Option.some.inj hy
  exact hx

variable (s : SortedSet α) (walk : Option (Walk α))

@[simp] theorem container_session : (p.session s walk).container = s := by
  cases walk <;> rfl

@[simp] theorem seat_session : (p.session s walk).seat = p.seat := by
  have h := Session.seatOf_inner (p.root .empty) s p.frames
  cases walk <;> exact h

variable {p s walk}

theorem Holds.resumed (hwalk : p.Holds walk) : p.Holds (walk.map Walk.resumed) := by
  intro x hx
  obtain ⟨y, hy, rfl⟩ := Option.map_eq_some_iff.1 hx
  exact (hwalk y hy).resumed

theorem exists_view {view : Viewpoint} (hseat : p.seat = ⟨p.handler, p.id, some view⟩) :
    ∃ v rest, p.frames = .sortedView v :: rest ∧ v.range.bounds = p.bounds := by
  rcases p.isOutlook with ⟨hframes, -⟩ | hview
  · rw [seat, hframes] at hseat
    cases congrArg Seat.view hseat
  · exact hview

variable [BEq α] [Std.TransOrd α] {w : HeardWorld α} {view : Viewpoint}

/-! ### Commands -/

/-- **A command at a view** is the command at the restricted set, unless it would add a value out of
bounds. -/
theorem mutation?_session (hseat : p.seat = ⟨p.handler, p.id, some view⟩) (hwalk : p.Holds walk)
    (h₀ : HandlerRef) (id₀ : ContainerId) (command : Command α) :
    Option.Rel (SortedSet.Restricts p.bounds command s)
      (Standard.sortedSet.mutation? (p.session s walk).frames command)
      (Standard.sortedSet.mutation? ((alone α h₀ id₀).session (s.restrict p.bounds) walk).frames
        command) := by
  cases walk with
  | none =>
    obtain ⟨v, rest, hframes, hv⟩ := p.exists_view hseat
    have hrange := SortedSet.rangeMutation?_restrict v.range.bounds command s
    rw [session, hframes, ← hv]
    exact hrange
  | some x => exact SortedSet.iterationMutation?_restrict (hwalk x rfl).current command s

theorem exists_mutation (hseat : p.seat = ⟨p.handler, p.id, some view⟩) (hwalk : p.Holds walk)
    (h₀ : HandlerRef) (id₀ : ContainerId) {command : Command α}
    (hserved : command.isServed walk.isSome) :
    ∃ f f₀, Standard.sortedSet.mutation? (p.session s walk).frames command = some f ∧
      Standard.sortedSet.mutation? ((alone α h₀ id₀).session (s.restrict p.bounds) walk).frames
        command = some f₀ ∧ SortedSet.Restricts p.bounds command s f f₀ := by
  have hrel := mutation?_session (s := s) hseat hwalk h₀ id₀ command
  have hsome : (Standard.sortedSet.mutation? ((alone α h₀ id₀).session (s.restrict p.bounds)
      walk).frames command).isSome := by
    cases walk <;> cases command <;> first | rfl | cases hserved
  generalize Standard.sortedSet.mutation? (p.session s walk).frames command = o at hrel
  generalize Standard.sortedSet.mutation? ((alone α h₀ id₀).session (s.restrict p.bounds)
    walk).frames command = o₀ at hrel hsome
  cases hrel with
  | none => cases hsome
  | some hrel => exact ⟨_, _, rfl, rfl, hrel⟩

/-- At a view, the removal of a value out of bounds finds nothing, whatever the set holds. -/
theorem mutation?_remove (hseat : p.seat = ⟨p.handler, p.id, some view⟩) {v : α}
    (hv : p.bounds.contains v = false)
    {f : SortedSet α → Except Error (Mutation (SortedSet α) α)}
    (hf : Standard.sortedSet.mutation? (p.session s walk).frames (.remove v) = some f) :
    walk = none ∧ ∀ t, f t = .ok ⟨.remove v, .remove v none, .flag false, t⟩ := by
  cases walk with
  | none =>
    obtain ⟨u, rest, hframes, hu⟩ := p.exists_view hseat
    rw [session, hframes] at hf
    obtain rfl := Option.some.inj hf
    rw [← hu] at hv
    exact ⟨rfl, fun t => congrArg Except.ok (if_neg (by simp [hv]))⟩
  | some x => cases hf

/-- An accepted command leads from an outlook to the same outlook. -/
theorem afterward_session (hs : Standard.sortedSet.Sound (p.session s walk) w)
    {command : Command α} {f : SortedSet α → Except Error (Mutation (SortedSet α) α)}
    {m : Mutation (SortedSet α) α}
    (hf : Standard.sortedSet.mutation? (p.session s walk).frames command = some f)
    (hm : f s = .ok m) :
    Standard.sortedSet.afterward command (p.session s walk) m.container =
      p.session m.container (walk.map Walk.resumed) := by
  cases walk with
  | none =>
    rcases p.isOutlook with ⟨hframes, -⟩ | ⟨v, rest, hframes, -⟩ <;>
      simp only [Standard.afterward, session, hframes] <;> rfl
  | some x =>
    have hfits := hs.fits
    rw [container_session] at hfits
    have hsize : (Standard.sortedSet.resumed (x.iteration p.bounds s.items.length)).size =
        m.container.items.length := (hfits.afterward hf hm).front.size_eq
    have hresumed : Standard.sortedSet.resumed (x.iteration p.bounds s.items.length) =
        x.resumed.iteration p.bounds m.container.items.length := by
      rw [← hsize]
      obtain ⟨last, removable, n, current⟩ := x
      cases current with
      | none => rfl
      | some y => rfl
    exact congrArg (fun it => Session.mk (p.root m.container) (.iteration it p.front :: p.frames))
      hresumed

/-! ### Actions that are not heard of -/

/-- **A query at a view** is answered as by a set of the elements within the bounds. -/
theorem answer?_session (hseat : p.seat = ⟨p.handler, p.id, some view⟩) (h₀ : HandlerRef)
    (id₀ : ContainerId) {q : Query α} (hq : q.isServed walk.isSome) :
    ∃ r, Standard.sortedSet.answer? q (p.session s walk) = some r ∧
      Standard.sortedSet.answer? q ((alone α h₀ id₀).session (s.restrict p.bounds) walk) =
        some r := by
  cases walk with
  | none =>
    obtain ⟨v, rest, hframes, hv⟩ := p.exists_view hseat
    rw [session, hframes, ← hv]
    have hsize : s.sizeWithin v.range.bounds = (s.restrict v.range.bounds).items.length :=
      s.sizeWithin_eq v.range.bounds
    have hvalues : s.within v.range.bounds = (s.restrict v.range.bounds).items :=
      s.within_eq v.range.bounds
    have hcontains := s.contains_restrict v.range.bounds
    cases q with
    | size => exact ⟨_, congrArg (fun n => some (Response.number (some n))) hsize, rfl⟩
    | isEmpty => exact ⟨_, congrArg (fun n => some (Response.flag (n == 0))) hsize, rfl⟩
    | contains x => exact ⟨_, congrArg (some <| Response.flag ·) (hcontains x).symm, rfl⟩
    | first => exact ⟨_, congrArg (fun l : List α => some (Response.element l.head?)) hvalues, rfl⟩
    | last => exact ⟨_, congrArg (fun l : List α => some (Response.element l.getLast?)) hvalues,
        rfl⟩
    | _ => cases hq
  | some x =>
    cases q with
    | index => exact ⟨_, rfl, rfl⟩
    | _ => cases hq

/-- **An iteration at an outlook** steps along the elements within the bounds. -/
theorem move?_session {x : Walk α} (hx : x.IsWithin p.bounds) :
    Standard.sortedSet.move? .next (p.session s (some x)) =
      some ((x.next (s.restrict p.bounds)).1,
        p.session s (some (x.next (s.restrict p.bounds)).2)) :=
  congrArg (fun y : Option α × Iteration (SortedSet α) (ResumingCursor α) α =>
      some (y.1, Session.mk (p.root s) (.iteration (Iteration.over y.2 ()) p.front :: p.frames)))
    (Walk.next_iteration hx s s.items.length)

variable [ObjectIdentity α] {j j₀ : Judge α}

theorem act_next (w : HeardWorld α) {x : Walk α} (hx : x.IsWithin p.bounds) :
    Standard.sortedSet.act j.observers (.move .next) (p.session s (some x)) w =
      some (.ok (.element (x.next (s.restrict p.bounds)).1),
        p.session s (some (x.next (s.restrict p.bounds)).2), w) :=
  congrArg (Option.map fun y : Option α × Session (SortedSet α) (ResumingCursor α) α =>
    (Except.ok (Response.element y.1), y.2, w)) (move?_session hx)

theorem act_iteration (w : HeardWorld α) :
    Standard.sortedSet.act j.observers (.openFrame .iteration) (p.session s none) w =
      some (.ok .nothing, p.session s (some {}), w) := by
  obtain ⟨handler, id, bounds, frames, hlook⟩ := p
  rcases hlook with ⟨rfl, rfl⟩ | ⟨v, rest, rfl, rfl⟩ <;> rfl

variable (j j₀) in
/-- An action that is no command leaves the elements alone and is answered alike at a view and at a
set of its elements. -/
theorem act_quiet (hseat : p.seat = ⟨p.handler, p.id, some view⟩) (hwalk : p.Holds walk)
    (h₀ : HandlerRef) (id₀ : ContainerId) {a : Action α} {rest : List (Action α)}
    (ha : ∀ c, a ≠ .command c) (hscript : isRangeScript walk.isSome (a :: rest))
    (w w₀ : HeardWorld α) :
    ∃ r walk', Standard.sortedSet.act j.observers a (p.session s walk) w =
        some (.ok r, p.session s walk', w) ∧
      Standard.sortedSet.act j₀.observers a
          ((alone α h₀ id₀).session (s.restrict p.bounds) walk) w₀ =
        some (.ok r, (alone α h₀ id₀).session (s.restrict p.bounds) walk', w₀) ∧
      p.Holds walk' ∧ isRangeScript walk'.isSome rest := by
  cases a with
  | command command => exact absurd rfl (ha command)
  | query q =>
    obtain ⟨hq, hrest⟩ := Bool.and_eq_true_iff.1 hscript
    obtain ⟨r, hr, hr₀⟩ := answer?_session (s := s) hseat h₀ id₀ hq
    exact ⟨r, walk, congrArg (Option.map _) hr, congrArg (Option.map _) hr₀, hwalk, hrest⟩
  | move m =>
    cases walk with
    | none => cases m <;> cases hscript
    | some x =>
      cases m with
      | previous => cases hscript
      | next =>
        have hx := hwalk x rfl
        have hact₀ := act_next (p := alone α h₀ id₀) (s := s.restrict p.bounds) (j := j₀) w₀
          (x.isWithin_all)
        rw [show (alone α h₀ id₀).bounds = .all from rfl, SortedSet.restrict_all] at hact₀
        exact ⟨_, _, act_next w hx, hact₀, holds_some hx.next, hscript⟩
  | openFrame o =>
    cases walk with
    | some x => cases o <;> cases hscript
    | none =>
      cases o with
      | iteration =>
        exact ⟨.nothing, some {}, act_iteration w, act_iteration w₀,
          holds_some (Walk.isWithin_start p.bounds), hscript⟩
      | _ => cases hscript
  | close =>
    cases walk with
    | none => cases hscript
    | some x => exact ⟨.nothing, none, rfl, rfl, holds_none p, hscript⟩

/-! ### What is owed to the bounds -/

section Respects

variable {b : Bounds α} {σ σ' : Session (SortedSet α) (ResumingCursor α) α}

omit [BEq α] [Std.TransOrd α] [ObjectIdentity α] in
theorem respects_quiet {a : Action α} {r : Response α} (hcontainer : σ'.container = σ.container)
    (ha : ∀ c, a ≠ .command c) : Turn.Respects b ⟨a, σ, w, .ok r, σ', w⟩ := by
  have hin : a.isWithin b := Action.isWithin_of_ne_command ha
  exact {
    outside := by rw [hcontainer]
    keyOutOfRange := by simp [hin]
    turnedDown := by simp [hin]
    absent := fun v h => absurd h (ha _) }

omit [BEq α] [Std.TransOrd α] [ObjectIdentity α] in
theorem respects_failed {command : Command α} {e : Error}
    (he : e = .keyOutOfRange ↔ command.isWithin b = false)
    (hremove : ∀ v, command = .remove v → b.contains v) :
    Turn.Respects b ⟨.command command, σ, w, .error e, σ, w⟩ where
  outside := rfl
  keyOutOfRange := by simpa [Action.isWithin] using he
  turnedDown := fun _ => ⟨Turn.heard_eq (List.append_nil _).symm, rfl⟩
  absent := fun v h hv => by
    cases h
    rw [hremove v rfl] at hv
    cases hv

omit [BEq α] [Std.TransOrd α] [ObjectIdentity α] in
theorem respects_asked {command : Command α} {r : Response α} {root : HandlerRef} {size : Nat}
    {calls : List (Heard α)} (hin : command.isWithin b)
    (houtside : σ'.container.outside b = σ.container.outside b)
    (hremove : ∀ v, command = .remove v → b.contains v = false →
      r = .flag false ∧ σ' = σ ∧ ∃ e answer, calls = [.asked e answer] ∧
        e.modification = .remove v) :
    Turn.Respects b ⟨.command command, σ, w, .ok r, σ', w.judged root size calls⟩ where
  outside := houtside
  keyOutOfRange := by simp [Action.isWithin, hin]
  turnedDown := by simp [Action.isWithin, hin]
  absent := fun v h hv => by
    obtain ⟨hr, hσ, e, answer, hcalls, he⟩ := hremove v (Action.command.inj h) hv
    exact ⟨congrArg Except.ok hr, hσ, e, answer, (Turn.heard_eq rfl).trans hcalls, he⟩

/-- **A command at a view** leads to the same view and leaves alone what is out of bounds. -/
theorem respects_command (hseat : p.seat = ⟨p.handler, p.id, some view⟩) (hwalk : p.Holds walk)
    (hs : Standard.sortedSet.Sound (p.session s walk) w) {command : Command α}
    (hserved : command.isServed walk.isSome) :
    ∃ r t walk' w', Standard.sortedSet.act j.observers (.command command) (p.session s walk) w =
        some (r, p.session t walk', w') ∧
      p.Holds walk' ∧ walk'.isSome = walk.isSome ∧
      Turn.Respects p.bounds ⟨.command command, p.session s walk, w, r, p.session t walk', w'⟩ := by
  obtain ⟨f, f₀, hf, -, hrestricts⟩ := exists_mutation (s := s) hseat hwalk p.handler p.id hserved
  have hact := Standard.act_command hs j command
  rw [hf, Option.map_some, container_session] at hact
  cases hrestricts with
  | turnedDown hout hfs =>
    rw [hfs] at hact
    refine ⟨_, s, walk, w, hact, hwalk, rfl, respects_failed (iff_of_true rfl hout) ?_⟩
    rintro v rfl
    cases hout
  | lacking hin hfs hf₀ =>
    rw [hfs] at hact
    refine ⟨_, s, walk, w, hact, hwalk, rfl, respects_failed (by simp [hin]) ?_⟩
    rintro v rfl
    by_contra hv
    rw [(mutation?_remove hseat (Bool.eq_false_iff.2 hv) hf).2 s] at hfs
    cases hfs
  | @made m hin hfs hf₀ houtside =>
    have hremove : ∀ v, command = .remove v → p.bounds.contains v = false →
        walk = none ∧ m = ⟨.remove v, .remove v none, .flag false, s⟩ := by
      rintro v rfl hv
      obtain ⟨hnone, hall⟩ := mutation?_remove hseat hv hf
      exact ⟨hnone, Except.ok.inj (hfs.symm.trans (hall s))⟩
    have hjudged := Standard.act_mutation (j := j) hs hf (by rwa [container_session])
    rw [afterward_session hs hf hfs] at hjudged
    dsimp only at hjudged
    split at hjudged
    · refine ⟨_, m.container, walk.map Walk.resumed, _, hjudged, hwalk.resumed,
        Option.isSome_map .., respects_asked hin (by simpa using houtside) ?_⟩
      rintro v rfl hv
      obtain ⟨rfl, rfl⟩ := hremove v rfl hv
      exact ⟨rfl, rfl, _, _, rfl, rfl⟩
    · refine ⟨_, s, walk, _, hjudged, hwalk, rfl, respects_asked hin rfl ?_⟩
      rintro v rfl hv
      obtain ⟨rfl, rfl⟩ := hremove v rfl hv
      exact ⟨rfl, rfl, _, _, rfl, rfl⟩

theorem respects_step (hseat : p.seat = ⟨p.handler, p.id, some view⟩) (hwalk : p.Holds walk)
    (hs : Standard.sortedSet.Sound (p.session s walk) w) {a : Action α} {rest : List (Action α)}
    (hscript : isRangeScript walk.isSome (a :: rest)) :
    ∃ r t walk' w', Standard.sortedSet.act j.observers a (p.session s walk) w =
        some (r, p.session t walk', w') ∧
      p.Holds walk' ∧ isRangeScript walk'.isSome rest ∧
      Turn.Respects p.bounds ⟨a, p.session s walk, w, r, p.session t walk', w'⟩ := by
  by_cases ha : ∃ command, a = .command command
  · obtain ⟨command, rfl⟩ := ha
    obtain ⟨hserved, hrest⟩ := Bool.and_eq_true_iff.1 hscript
    obtain ⟨r, t, walk', w', hact, hwalk', hsome, hrespects⟩ :=
      respects_command (j := j) hseat hwalk hs hserved
    exact ⟨r, t, walk', w', hact, hwalk', hsome ▸ hrest, hrespects⟩
  · have ha : ∀ command, a ≠ .command command := fun command h => ha ⟨command, h⟩
    obtain ⟨r, walk', hact, -, hwalk', hrest⟩ :=
      act_quiet j j (s := s) hseat hwalk p.handler p.id ha hscript w w
    exact ⟨_, s, walk', w, hact, hwalk', hrest, respects_quiet (by simp) ha⟩

/-- **A script at a view** is played in full, and each turn leaves alone what is out of bounds. -/
theorem respects_script (hseat : p.seat = ⟨p.handler, p.id, some view⟩) (hwalk : p.Holds walk)
    (hs : Standard.sortedSet.Sound (p.session s walk) w) (script : List (Action α))
    (hscript : isRangeScript walk.isSome script) :
    (Standard.sortedSet.run j script (p.session s walk) w).turns.map (·.action) = script ∧
      ∀ t ∈ (Standard.sortedSet.run j script (p.session s walk) w).turns,
        t.Respects p.bounds := by
  induction script generalizing s walk w with
  | nil =>
    refine ⟨rfl, ?_⟩
    intro t ht
    cases ht
  | cons a rest ih =>
    obtain ⟨r, t, walk', w', hact, hwalk', hrest, hrespects⟩ :=
      respects_step (j := j) hseat hwalk hs hscript
    obtain ⟨hactions, hall⟩ := ih hwalk' ((hs.step hact).sound hs) hrest
    rw [Standard.run_of_act rest hact]
    exact ⟨congrArg (a :: ·) hactions, List.forall_mem_cons.2 ⟨hrespects, hall⟩⟩

end Respects

/-! ### Events -/

section Events

variable (hseat : p.seat = ⟨p.handler, p.id, some view⟩) (h₀ : HandlerRef) (id₀ : ContainerId)

omit [BEq α] [Std.TransOrd α] [ObjectIdentity α] in
include hseat in
theorem before_throughView (m : Modification α) :
    p.seat.before m s.items.length =
      ((alone α h₀ id₀).seat.before m (s.restrict p.bounds).items.length).throughView p.id p.handler
        view (s.outside p.bounds).length := by
  rw [hseat, ← s.length_restrict_add p.bounds]
  exact Seat.before_throughView ..

omit [BEq α] [Std.TransOrd α] in
include hseat in
theorem reports_throughView (c : Completion α) {t : SortedSet α}
    (houtside : t.outside p.bounds = s.outside p.bounds) :
    p.seat.reports c s.items.length t.items.length =
      ((alone α h₀ id₀).seat.reports c (s.restrict p.bounds).items.length
        (t.restrict p.bounds).items.length).map
          (Heard.throughView p.id p.handler view (s.outside p.bounds).length) := by
  rw [hseat, ← s.length_restrict_add p.bounds, ← t.length_restrict_add p.bounds, houtside]
  exact Seat.reports_throughView ..

end Events

/-! ### Scripts -/

section Scripts

variable {h₀ : HandlerRef} {id₀ : ContainerId} {outside : List α} {rest : List (Action α)}

variable (p h₀ id₀ outside) in
/-- The sessions of a view and of a set of its elements: the elements within the bounds and the
iteration are the same, and out of bounds stands what stood there before. -/
def Mirrors (σ σ₀ : Session (SortedSet α) (ResumingCursor α) α) : Prop :=
  ∃ s walk, σ = p.session s walk ∧
    σ₀ = (alone α h₀ id₀).session (s.restrict p.bounds) walk ∧ s.outside p.bounds = outside

variable (p h₀ id₀ view outside) in
/-- Runs that agree on a view and on a set of the view's elements. -/
def Agrees (course course₀ : Course (SortedSet α) (ResumingCursor α) α) : Prop :=
  course.Agrees (·.isWithin p.bounds) (Heard.throughView p.id p.handler view outside.length)
    (p.Mirrors h₀ id₀ outside) course₀

variable (p j j₀ h₀ id₀ view outside) in
/-- The script agrees at the view and, without what would add a value out of bounds, at a set of the
view's elements, under judges that do not contradict each other. -/
def AgreesOn (script : List (Action α)) : Prop :=
  ∀ (s : SortedSet α) (walk : Option (Walk α)) (w w₀ : HeardWorld α),
    isRangeScript walk.isSome script → p.Holds walk → s.outside p.bounds = outside →
    Standard.sortedSet.Sound (p.session s walk) w →
    Standard.sortedSet.Sound ((alone α h₀ id₀).session (s.restrict p.bounds) walk) w₀ →
    (Standard.sortedSet.run j script (p.session s walk) w).Concur
      (Standard.sortedSet.run j₀ (script.filter (·.isWithin p.bounds))
        ((alone α h₀ id₀).session (s.restrict p.bounds) walk) w₀) →
    p.Agrees view h₀ id₀ outside (Standard.sortedSet.run j script (p.session s walk) w)
      (Standard.sortedSet.run j₀ (script.filter (·.isWithin p.bounds))
        ((alone α h₀ id₀).session (s.restrict p.bounds) walk) w₀)

omit [BEq α] [Std.TransOrd α] [ObjectIdentity α] in
theorem filter_of_within {b : Bounds α} (a : Action α) (ha : a.isWithin b)
    (rest : List (Action α)) :
    (a :: rest).filter (·.isWithin b) = a :: rest.filter (·.isWithin b) :=
  List.filter_cons_of_pos ha

omit [BEq α] [Std.TransOrd α] [ObjectIdentity α] in
theorem filter_of_not_within {b : Bounds α} (a : Action α) (ha : a.isWithin b = false)
    (rest : List (Action α)) :
    (a :: rest).filter (·.isWithin b) = rest.filter (·.isWithin b) :=
  List.filter_cons_of_neg (Bool.eq_false_iff.1 ha)

/-- A command that comes to a mutation comes to the same one at the set of the view's elements. -/
theorem agrees_made (hseat : p.seat = ⟨p.handler, p.id, some view⟩)
    (ih : p.AgreesOn view j j₀ h₀ id₀ outside rest) {command : Command α} {w w₀ : HeardWorld α}
    (hrest : isRangeScript walk.isSome rest) (hwalk : p.Holds walk)
    (houtside : s.outside p.bounds = outside)
    (hs : Standard.sortedSet.Sound (p.session s walk) w)
    (hs₀ : Standard.sortedSet.Sound ((alone α h₀ id₀).session (s.restrict p.bounds) walk) w₀)
    {f f₀ : SortedSet α → Except Error (Mutation (SortedSet α) α)} {m : Mutation (SortedSet α) α}
    (hin : command.isWithin p.bounds)
    (hf : Standard.sortedSet.mutation? (p.session s walk).frames command = some f)
    (hf₀ : Standard.sortedSet.mutation? ((alone α h₀ id₀).session (s.restrict p.bounds)
      walk).frames command = some f₀)
    (hm : f s = .ok m) (hm₀ : f₀ (s.restrict p.bounds) = .ok (m.map (·.restrict p.bounds)))
    (hkept : m.container.outside p.bounds = s.outside p.bounds)
    (hconcur : (Standard.sortedSet.run j (.command command :: rest) (p.session s walk) w).Concur
      (Standard.sortedSet.run j₀ (.command command :: rest.filter (·.isWithin p.bounds))
        ((alone α h₀ id₀).session (s.restrict p.bounds) walk) w₀)) :
    p.Agrees view h₀ id₀ outside
      (Standard.sortedSet.run j (.command command :: rest) (p.session s walk) w)
      (Standard.sortedSet.run j₀ (.command command :: rest.filter (·.isWithin p.bounds))
        ((alone α h₀ id₀).session (s.restrict p.bounds) walk) w₀) := by
  have hm' : f (p.session s walk).container = .ok m := by rwa [container_session]
  have hm₀' : f₀ ((alone α h₀ id₀).session (s.restrict p.bounds) walk).container =
      .ok (m.map (·.restrict p.bounds)) := by rwa [container_session]
  have hafter := afterward_session hs hf hm
  have hafter₀ := afterward_session hs₀ hf₀ hm₀
  have hbefore := before_throughView (s := s) hseat h₀ id₀ m.proposal
  have hreports := reports_throughView hseat h₀ id₀ m.completion hkept
  rw [houtside] at hbefore hreports
  refine Course.Agrees.command hin hs hs₀ hf hm' hf₀ hm₀' rfl ?_ ?_ hconcur ?_ ?_
  · intro answer
    simp only [seat_session, container_session]
    exact congrArg (Heard.asked · answer) hbefore
  · simp only [seat_session, container_session]
    exact hreports
  · intro w' w₀' hs' hs₀' hconcur'
    exact ih s walk w' w₀' hrest hwalk houtside hs' hs₀' hconcur'
  · intro w' w₀' hs' hs₀' hconcur'
    rw [hafter] at hs' hconcur' ⊢
    rw [hafter₀] at hs₀' hconcur' ⊢
    have hrest' : isRangeScript (walk.map Walk.resumed).isSome rest := by rwa [Option.isSome_map]
    exact ih m.container (walk.map Walk.resumed) w' w₀' hrest' hwalk.resumed
      (hkept.trans houtside) hs' hs₀' hconcur'

theorem agreesOn_command (hseat : p.seat = ⟨p.handler, p.id, some view⟩)
    (ih : p.AgreesOn view j j₀ h₀ id₀ outside rest) (command : Command α) :
    p.AgreesOn view j j₀ h₀ id₀ outside (.command command :: rest) := by
  intro s walk w w₀ hscript hwalk houtside hs hs₀ hconcur
  obtain ⟨hserved, hrest⟩ := Bool.and_eq_true_iff.1 hscript
  obtain ⟨f, f₀, hf, hf₀, hrestricts⟩ := exists_mutation (s := s) hseat hwalk h₀ id₀ hserved
  have hact := Standard.act_command hs j command
  have hact₀ := Standard.act_command hs₀ j₀ command
  rw [hf, Option.map_some, container_session] at hact
  rw [hf₀, Option.map_some, container_session] at hact₀
  cases hrestricts with
  | turnedDown hout hm =>
    rw [hm] at hact
    rw [filter_of_not_within (.command command) hout] at hconcur ⊢
    exact .drop hout hact (ih s walk w w₀ hrest hwalk houtside hs hs₀ (hconcur.drop hact))
  | lacking hin hm hm₀ =>
    rw [hm] at hact
    rw [hm₀] at hact₀
    rw [filter_of_within (.command command) hin] at hconcur ⊢
    exact .quiet hin hact hact₀
      (ih s walk w w₀ hrest hwalk houtside hs hs₀ (hconcur.quiet hact hact₀))
  | made hin hm hm₀ hkept =>
    rw [filter_of_within (.command command) hin] at hconcur ⊢
    exact agrees_made hseat ih hrest hwalk houtside hs hs₀ hin hf hf₀ hm hm₀ hkept hconcur

theorem agreesOn_quiet (hseat : p.seat = ⟨p.handler, p.id, some view⟩)
    (ih : p.AgreesOn view j j₀ h₀ id₀ outside rest) {a : Action α}
    (ha : ∀ command, a ≠ .command command) :
    p.AgreesOn view j j₀ h₀ id₀ outside (a :: rest) := by
  intro s walk w w₀ hscript hwalk houtside hs hs₀ hconcur
  obtain ⟨r, walk', hact, hact₀, hwalk', hrest⟩ :=
    act_quiet j j₀ (s := s) hseat hwalk h₀ id₀ ha hscript w w₀
  have hin : a.isWithin p.bounds := Action.isWithin_of_ne_command ha
  rw [filter_of_within a hin] at hconcur ⊢
  exact .quiet hin hact hact₀ (ih s walk' w w₀ hrest hwalk' houtside
    ((hs.step hact).sound hs) ((hs₀.step hact₀).sound hs₀) (hconcur.quiet hact hact₀))

/-- **A script at a view and at a set of the view's elements**, under judges that do not contradict
each other. -/
theorem agreesOn_script (hseat : p.seat = ⟨p.handler, p.id, some view⟩)
    (script : List (Action α)) : p.AgreesOn view j j₀ h₀ id₀ outside script := by
  induction script with
  | nil =>
    intro s walk w w₀ _ _ houtside _ _ _
    exact ⟨rfl, rfl, s, walk, rfl, rfl, houtside⟩
  | cons a rest ih =>
    cases a with
    | command command => exact agreesOn_command hseat ih command
    | _ => exact agreesOn_quiet hseat ih (fun _ h => (by cases h))

end Scripts

omit [BEq α] [Std.TransOrd α] [ObjectIdentity α] in
theorem exists_session {σ : Session (SortedSet α) (ResumingCursor α) α} {v : SortedView Unit α}
    {rest : List (Frame (ResumingCursor α) α)} (hv : σ.frames = .sortedView v :: rest) :
    ∃ p : Outlook α, σ = p.session σ.container none ∧ p.bounds = v.range.bounds ∧
      p.seat = ⟨p.handler, p.id, some ⟨v.id, 0⟩⟩ ∧ p.handler = σ.root.handler ∧
      p.id = σ.root.id := by
  obtain ⟨⟨s, handler, id⟩, frames⟩ := σ
  obtain rfl : frames = _ := hv
  exact ⟨⟨handler, id, v.range.bounds, .sortedView v :: rest, .inr ⟨v, rest, rfl, rfl⟩⟩, rfl, rfl,
    rfl, rfl, rfl⟩

end Outlook

namespace Standard

variable [Ord α] [Std.TransOrd α] [BEq α] [ObjectIdentity α]

/-- **A script on a view of a sorted set is the script on a set of its elements**, less what would
add a value out of bounds.  Every action is performed.  Under judges that do not contradict each
other, such as judges that decide alike by the number of the question, both are asked equally often
and answer alike, and within the bounds the set ends as that set does.  What is out of bounds stays,
and every turn respects the bounds.  The events are those of the set of the elements, seen through the
view.  The walks that batches and clearing rest on come to their end. -/
theorem run_restricted {c : Watched (SortedSet α)} {w : HeardWorld α}
    (hc : w.Presides c.handler c.id) (j : Judge α) (actions : List (Action α))
    {v : SortedView Unit α} {rest : List (Frame (ResumingCursor α) α)}
    (hv : (sortedSet.run j actions c.session w).session.frames = .sortedView v :: rest)
    {c₀ : Watched (SortedSet α)} {w₀ : HeardWorld α} (hc₀ : w₀.Presides c₀.handler c₀.id)
    (j₀ : Judge α)
    (hvalues : c₀.inner.items = (sortedSet.run j actions c.session w).session.container.items.filter
      v.range.bounds.contains)
    (script : List (Action α)) (hscript : isRangeScript false script)
    (hconcur :
      let here := sortedSet.run j actions c.session w
      (sortedSet.run j script here.session here.world).Concur
        (sortedSet.run j₀ (script.filter (·.isWithin v.range.bounds)) c₀.session w₀)) :
    let b := v.range.bounds
    let here := sortedSet.run j actions c.session w
    let there := sortedSet.run j script here.session here.world
    let alone := sortedSet.run j₀ (script.filter (·.isWithin b)) c₀.session w₀
    let outside := here.session.container.items.filter fun x => !b.contains x
    there.turns.map (·.action) = script ∧ there.answers = alone.answers ∧
      (there.turns.filter fun t => t.action.isWithin b).map (·.response) = alone.responses ∧
      there.session.container.items.filter b.contains = alone.session.container.items ∧
      (there.session.container.items.filter fun x => !b.contains x) = outside ∧
      there.heard =
        alone.heard.map (Heard.throughView c.id c.handler ⟨v.id, 0⟩ outside.length) ∧
      (∀ t ∈ there.turns, t.Respects b) ∧
      ∀ (s : SortedSet α) (keep : α → Bool),
        let swept := SubRange.retain (⟨s, b⟩ : SubRange (SortedSet α) α) keep
        SubRange.Sweeps keep (s.cursorWithin b) s swept.1 swept.2 := by
  intro b here there alone outside
  have hhere := (sortedSet.sound_session hc).run (j := j) actions
  have hroot := (sortedSet.sound_session hc).root_run (j := j) actions
  obtain ⟨p, hp, hbounds, hseat, hhandler, hid⟩ := Outlook.exists_session hv
  have hrestrict : c₀.inner = here.session.container.restrict p.bounds :=
    SortedSet.ext (hbounds ▸ hvalues)
  have halone : c₀.session = (Outlook.alone α c₀.handler c₀.id).session
      (here.session.container.restrict p.bounds) none :=
    congrArg (fun s => Session.mk ⟨s, c₀.handler, c₀.id⟩ []) hrestrict
  have hsound : sortedSet.Sound (p.session here.session.container none) here.world := hp ▸ hhere
  have hscripts : p.AgreesOn ⟨v.id, 0⟩ j j₀ c₀.handler c₀.id
      (here.session.container.outside p.bounds) script := Outlook.agreesOn_script hseat script
  have hagree := hscripts here.session.container none here.world w₀ hscript (Outlook.holds_none p)
    rfl hsound (halone ▸ sortedSet.sound_session hc₀)
    (by rw [← hp, ← halone, hbounds]; exact hconcur)
  obtain ⟨hplayed, hrespects⟩ := Outlook.respects_script (j := j) hseat (Outlook.holds_none p)
    hsound script hscript
  rw [← hp, ← halone] at hagree
  rw [← hp] at hplayed hrespects
  rw [hbounds] at hagree hrespects
  have hanswers := Course.Agrees.answers hagree (Heard.answer?_throughView _ _ _ _)
  obtain ⟨hresponses, hheard, s, walk, hend, hend₀, houtside⟩ := hagree
  have hthere : there.session.container = s :=
    (congrArg Session.container hend).trans (p.container_session s walk)
  have hitems : alone.session.container = s.restrict p.bounds :=
    (congrArg Session.container hend₀).trans (Outlook.container_session _ _ walk)
  rw [hbounds] at hresponses houtside
  refine ⟨hplayed, hanswers, hresponses, ?_, ?_, ?_, hrespects,
    fun s keep => SubRange.sweeps_retain s b keep⟩
  · rw [hthere, hitems, hbounds]
    rfl
  · rw [hthere]
    exact houtside
  · rw [hhandler, hid, hroot.1, hroot.2] at hheard
    exact hheard

/-- A view of a view, with the elements 3, 5 and 6.  What would add 9 is turned down, also in a
batch, clearing is refused, the removal of 1 finds nothing, and an iteration takes out the first
element it comes to. -/
theorem run_restricted_nested :
    let k : Standard Int (SortedSet Int) (ResumingCursor Int) := .sortedSet
    let j : Judge Int := fun heard _ => !heard.isEmpty
    let b : Bounds Int := ⟨.excluded 2, .included 6⟩
    let script : List (Action Int) := [.command (.add 9), .command .clear, .command (.remove 1),
      .command (.addAll [4, 9]), .command (.addAll [4, 5]), .openFrame .iteration, .move .next,
      .command .removeLast, .close, .command (.retainAll [1, 5, 6, 8])]
    let here := k.run j [.openFrame (.range ⟨.included 2, .included 6⟩),
      .openFrame (.range ⟨.excluded 2, .unbounded⟩)]
      (Watched.alone ⟨[1, 2, 3, 5, 6, 7], by unfold Precedes; decide⟩).session k.world
    let there := k.run j script here.session here.world
    let alone := k.run j (script.filter (·.isWithin b))
      (Watched.alone ⟨[3, 5, 6], by unfold Precedes; decide⟩).session k.world
    alone.session.container.items = [5, 6] ∧
      there.session.container.items.filter b.contains = alone.session.container.items ∧
      (there.session.container.items.filter fun x => !b.contains x) = [1, 2, 7] ∧
      ∀ t ∈ there.turns, t.Respects b := by
  intro k j b script here there alone
  have hrun := run_restricted (v := ⟨⟨(), b⟩, ⟨2⟩, ⟨3⟩⟩)
    (presides_world k ⟨[1, 2, 3, 5, 6, 7], by unfold Precedes; decide⟩) j
    [.openFrame (.range ⟨.included 2, .included 6⟩), .openFrame (.range ⟨.excluded 2, .unbounded⟩)]
    rfl (presides_world k ⟨[3, 5, 6], by unfold Precedes; decide⟩) j (by decide +kernel) script rfl
    (by decide +kernel)
  obtain ⟨-, -, -, hwithin, houtside, -, hrespects, -⟩ := hrun
  exact ⟨by decide +kernel, hwithin, houtside.trans (by decide +kernel), hrespects⟩

end Standard

end WatchedContainers
