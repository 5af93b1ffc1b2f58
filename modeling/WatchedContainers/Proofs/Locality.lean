import WatchedContainers.Proofs.Lockstep

/-!
# Locality of sub-lists

A sub-list, and a list iterator on it, behave as a list of the sub-list's elements would.  Both are
places where a list of elements stands between others (`Place`), and what an action does at a place
depends on these elements and on the iterator only.

* `Place.act_command`, `Place.answer?_session`, `Place.move?_session`: what actions do at a place.
* `Standard.run_local`: **a script on a sub-list is the script on a list of its elements**.
-/

namespace WatchedContainers

variable {α : Type}

/-- Where a list iterator stands, and the position of the element it moved over last. -/
abbrev Stand := Nat × Option Nat

/-- A list, or a sub-list, without its elements. -/
structure Place (α : Type) where
  pre : List α
  suf : List α
  handler : HandlerRef
  id : ContainerId
  frames : List (Frame PositionCursor α)
  isList : (frames = [] ∧ pre = [] ∧ suf = []) ∨
    ∃ v rest, frames = .subList v :: rest ∧ v.segment = ⟨(), pre.length, suf.length⟩

namespace Place

def alone (α : Type) (handler : HandlerRef) (id : ContainerId) : Place α :=
  ⟨[], [], handler, id, [], .inl ⟨rfl, rfl, rfl⟩⟩

variable (p : Place α)

def root (mid : List α) : Watched (Sequence α) := ⟨⟨p.pre ++ mid ++ p.suf⟩, p.handler, p.id⟩

def front : HandlerRef :=
  match p.frames with
  | [] => p.handler
  | f :: _ => f.handler

def seat : Seat := Session.seatOf (p.root []) p.frames

def size (mid : List α) : Nat := p.pre.length + mid.length + p.suf.length

def session (mid : List α) : Option Stand → Session (Sequence α) PositionCursor α
  | none => ⟨p.root mid, p.frames⟩
  | some (cursor, last) =>
    ⟨p.root mid,
      .listIterator ⟨⟨(), p.pre.length, p.suf.length⟩, cursor, last⟩ p.front :: p.frames⟩

variable (mid : List α) (it : Option Stand)

@[simp] theorem container_session : (p.session mid it).container = ⟨p.pre ++ mid ++ p.suf⟩ := by
  rcases it with - | ⟨cursor, last⟩ <;> rfl

@[simp] theorem seat_session : (p.session mid it).seat = p.seat := by
  have h := Session.seatOf_inner (p.root []) ⟨p.pre ++ mid ++ p.suf⟩ p.frames
  rcases it with - | ⟨cursor, last⟩ <;> exact h

/-! ### Commands -/

def localMutation? [BEq α] (command : Command α) :
    Option Stand → Option (Sequence α → Except Error (Mutation (Sequence α) α))
  | none => Sequence.mutation? command
  | some (cursor, last) => ListIterator.mutation? cursor last command

def standAfter (command : Command α) : Option Stand → Option Stand
  | none => none
  | some (cursor, last) =>
    let it := ListIterator.resumed (⟨⟨(), 0, 0⟩, cursor, last⟩ : ListIterator Unit) command
    some (it.cursor, it.last)

theorem mutation?_session [BEq α] (command : Command α) :
    Standard.sequence.mutation? (p.session mid it).frames command =
      (localMutation? command it).map (Sequence.within p.pre.length p.suf.length) := by
  rcases it with - | ⟨cursor, last⟩
  · rcases p.isList with ⟨hframes, hpre, hsuf⟩ | ⟨v, rest, hframes, hv⟩
    · have hzero : ∀ f : Sequence α → Except Error (Mutation (Sequence α) α),
          Sequence.within p.pre.length p.suf.length f = f := by
        intro f
        rw [hpre, hsuf]
        exact funext (Sequence.within_zero f)
      rw [session, hframes, funext hzero]
      exact Option.map_id'.symm
    · rw [session, hframes]
      change (Sequence.mutation? command).map (Sequence.within v.segment.start v.segment.tail) = _
      rw [hv]
      rfl
  · rfl

theorem afterward_session [BEq α] (command : Command α) (items : List α) :
    Standard.sequence.afterward command (p.session mid it) ⟨p.pre ++ items ++ p.suf⟩ =
      p.session items (standAfter command it) := by
  rcases it with - | ⟨cursor, last⟩
  · rcases p.isList with ⟨hframes, -⟩ | ⟨v, rest, hframes, -⟩ <;>
      simp only [session, hframes] <;> rfl
  · cases command <;> cases last <;> rfl

theorem size_around [BEq α] :
    Standard.sequence.size (⟨p.pre ++ mid ++ p.suf⟩ : Sequence α) = p.size mid := by
  change (p.pre ++ mid ++ p.suf).length = _
  rw [List.length_append, List.length_append, size]

def verdict [BEq α] [ObjectIdentity α] (j : Judge α) (command : Command α) (w : HeardWorld α) :
    Except Error (Mutation (Sequence α) α) →
      Except Error (Response α) × Session (Sequence α) PositionCursor α × HeardWorld α
  | .error e => (.error e, p.session mid it, w)
  | .ok m =>
    let e := p.seat.before m.proposal (p.size mid)
    if j w.outside e then
      (.ok m.response, p.session m.container.items (standAfter command it),
        w.judged p.seat.root (p.size mid) (.asked e true ::
          p.seat.reports m.completion (p.size mid) (p.size m.container.items)))
    else
      (.ok command.refusal, p.session mid it,
        w.judged p.seat.root (p.size mid) [.asked e false])

section Actions

variable [BEq α] [ObjectIdentity α] {w : HeardWorld α}

/-- **A command at a place** depends on the elements and the iterator only. -/
theorem act_command (hs : Standard.sequence.Sound (p.session mid it) w) (j : Judge α)
    (command : Command α) :
    Standard.sequence.act j.observers (.command command) (p.session mid it) w =
      (localMutation? command it).map fun f => p.verdict mid it j command w (f ⟨mid⟩) := by
  rw [Standard.act_command hs, mutation?_session, Option.map_map]
  refine congrArg (Option.map · _) (funext fun f => ?_)
  rw [Function.comp_apply, container_session, Sequence.within_middle]
  cases f ⟨mid⟩ with
  | error e => rfl
  | ok m =>
    have hafter := p.afterward_session mid it command m.container.items
    simp only [Except.map, Standard.verdict, verdict, Mutation.map, seat_session,
      container_session, size_around, hafter]

/-! ### Queries -/

def localAnswer? : Option Stand → Query α → Option (Response α)
  | none, .size => some (.number (some mid.length))
  | none, .isEmpty => some (.flag (mid.length == 0))
  | none, .contains v => some (.flag (mid.any (· == v)))
  | none, .values => some (.elements mid)
  | none, .get i => some (.element mid[i]?)
  | some (cursor, _), .hasNext => some (.flag (decide (cursor < mid.length)))
  | some (cursor, _), .nextIndex => some (.number (some cursor))
  | some (cursor, _), .hasPrevious => some (.flag (cursor != 0))
  | some (cursor, _), .previousIndex =>
    some (.number (if cursor = 0 then none else some (cursor - 1)))
  | _, _ => none

omit [ObjectIdentity α] in
theorem segmentAnswer?_around (pre suf : List α) (q : Query α) :
    Session.segmentAnswer? (Segment.around pre mid suf) q = localAnswer? mid none q := by
  cases q <;> simp [Session.segmentAnswer?, localAnswer?, Segment.isEmpty, Segment.contains_around]

omit [ObjectIdentity α] in
theorem rootAnswer?_list (q : Query α) :
    Session.rootAnswer? Standard.sequence.family (⟨mid⟩ : Sequence α) q =
      localAnswer? mid none q := by
  have hwhole := Segment.whole_eq_around (⟨mid⟩ : Sequence α)
  cases q with
  | values =>
    change some (Response.elements (Segment.whole (⟨mid⟩ : Sequence α)).values) = _
    rw [hwhole, Segment.values_around]
    rfl
  | get i =>
    change some (Response.element ((Segment.whole (⟨mid⟩ : Sequence α)).get? i)) = _
    rw [hwhole, Segment.get?_around]
    rfl
  | _ => rfl

omit [ObjectIdentity α] in
theorem listIteratorAnswer?_around (pre suf : List α) (cursor : Nat) (last : Option Nat)
    (q : Query α) :
    Session.listIteratorAnswer? (ListIterator.around pre mid suf cursor last) q =
      localAnswer? mid (some (cursor, last)) q := by
  cases q with
  | hasNext =>
    rw [Session.listIteratorAnswer?, ListIterator.hasNext_around]
    rfl
  | _ => rfl

omit [ObjectIdentity α] in
/-- **A query at a place** reads the elements and the iterator only. -/
theorem answer?_session (q : Query α) :
    Standard.sequence.answer? q (p.session mid it) = localAnswer? mid it q := by
  rcases it with - | ⟨cursor, last⟩
  · rcases p.isList with ⟨hframes, hpre, hsuf⟩ | ⟨v, rest, hframes, hv⟩
    · have hroot : p.session mid none = ⟨⟨⟨mid⟩, p.handler, p.id⟩, []⟩ := by
        simp [session, root, hframes, hpre, hsuf]
      rw [hroot]
      exact rootAnswer?_list mid q
    · rw [session, hframes]
      change Session.segmentAnswer? (v.segment.over (p.root mid).inner) q = _
      rw [hv]
      exact segmentAnswer?_around mid p.pre p.suf q
  · exact listIteratorAnswer?_around mid p.pre p.suf cursor last q

theorem act_query (j : Judge α) (q : Query α) :
    Standard.sequence.act j.observers (.query q) (p.session mid it) w =
      (localAnswer? mid it q).map fun r => (.ok r, p.session mid it, w) :=
  congrArg (Option.map _) (p.answer?_session mid it q)

/-! ### Moves -/

/-- A step of an iterator along the elements. -/
def localMove? : Option Stand → Move → Option (Option α × Option Stand)
  | none, _ => none
  | some (cursor, last), .next =>
    some (if cursor < mid.length then (mid[cursor]?, some (cursor + 1, some cursor))
      else (none, some (cursor, last)))
  | some (cursor, last), .previous =>
    some (if cursor = 0 then (none, some (cursor, last))
      else (mid[cursor - 1]?, some (cursor - 1, some (cursor - 1))))

omit [ObjectIdentity α] in
theorem move?_session (hs : Standard.sequence.Sound (p.session mid it) w) (m : Move) :
    Standard.sequence.move? m (p.session mid it) =
      (localMove? mid it m).map fun x => (x.1, p.session mid x.2) := by
  rcases it with - | ⟨cursor, last⟩
  · rcases p.isList with ⟨hframes, -⟩ | ⟨v, rest, hframes, -⟩ <;>
      rw [session, hframes] <;> cases m <;> rfl
  · have hr : ListIterator.InRange cursor last mid.length := by
      have hfront := hs.fits.front.2
      rw [container_session, size_around, size] at hfront
      rwa [show p.pre.length + mid.length + p.suf.length - p.pre.length - p.suf.length =
        mid.length by omega] at hfront
    cases m with
    | next =>
      have hnext : (ListIterator.around p.pre mid p.suf cursor last).next = _ :=
        ListIterator.next_around p.pre mid p.suf
      change some ((ListIterator.around p.pre mid p.suf cursor last).next.1,
        Session.mk (p.root mid) (.listIterator
          ((ListIterator.around p.pre mid p.suf cursor last).next.2.over ()) p.front ::
            p.frames)) = _
      rw [hnext, localMove?]
      by_cases h : cursor < mid.length
      · simp only [if_pos h]
        rfl
      · simp only [if_neg h]
        rfl
    | previous =>
      have hprevious := ListIterator.previous_around p.pre mid p.suf hr
      change some ((ListIterator.around p.pre mid p.suf cursor last).previous.1,
        Session.mk (p.root mid) (.listIterator
          ((ListIterator.around p.pre mid p.suf cursor last).previous.2.over ()) p.front ::
            p.frames)) = _
      rw [hprevious, localMove?]
      by_cases h : cursor = 0
      · simp only [if_pos h]
        rfl
      · simp only [if_neg h]
        rfl

theorem act_move (hs : Standard.sequence.Sound (p.session mid it) w) (j : Judge α) (m : Move) :
    Standard.sequence.act j.observers (.move m) (p.session mid it) w =
      (localMove? mid it m).map fun x => (.ok (.element x.1), p.session mid x.2, w) := by
  have hmove : (Standard.sequence.move? m (p.session mid it)).map _ = _ :=
    congrArg (Option.map fun x => (Except.ok (ε := Error) (Response.element x.1), x.2, w))
      (p.move?_session mid it hs m)
  rw [Option.map_map] at hmove
  exact hmove

/-! ### List iterators that are opened and closed -/

theorem act_listIterator (j : Judge α) :
    Standard.sequence.act j.observers (.openFrame .listIterator) (p.session mid none) w =
      some (.ok .nothing, p.session mid (some (0, none)), w) := by
  obtain ⟨pre, suf, handler, id, frames, hlist⟩ := p
  rcases hlist with ⟨rfl, rfl, rfl⟩ | ⟨v, rest, rfl, hv⟩
  · rfl
  · obtain ⟨segment, ref, vid⟩ := v
    obtain rfl : segment = _ := hv
    rfl

theorem act_close (j : Judge α) (stand : Stand) :
    Standard.sequence.act j.observers .close (p.session mid (some stand)) w =
      some (.ok .nothing, p.session mid none, w) := rfl

end Actions

/-! ### Events -/

section Events

variable {view : Viewpoint} (hseat : p.seat = ⟨p.handler, p.id, some view⟩) (h₀ : HandlerRef)
  (id₀ : ContainerId)

theorem size_alone (mid : List α) :
    p.size mid = (alone α h₀ id₀).size mid + (p.pre.length + p.suf.length) := by
  simp only [size, alone, List.length_nil]
  omega

include hseat in
theorem before_throughView (m : Modification α) :
    p.seat.before m (p.size mid) =
      ((alone α h₀ id₀).seat.before m ((alone α h₀ id₀).size mid)).throughView p.id p.handler view
        (p.pre.length + p.suf.length) := by
  rw [p.size_alone h₀ id₀, hseat]
  exact Seat.before_throughView ..

include hseat in
theorem reports_throughView [ObjectIdentity α] (c : Completion α) (mid' : List α) :
    p.seat.reports c (p.size mid) (p.size mid') =
      ((alone α h₀ id₀).seat.reports c ((alone α h₀ id₀).size mid) ((alone α h₀ id₀).size mid')).map
        (Heard.throughView p.id p.handler view (p.pre.length + p.suf.length)) := by
  rw [p.size_alone h₀ id₀, p.size_alone h₀ id₀ mid', hseat]
  exact Seat.reports_throughView ..

end Events

/-! ### Scripts -/

section Scripts

/-- Two runs of the same script, at a place and at a list alone, answer alike, are heard of alike
and end with the same elements and the same iterator. -/
structure Agrees (tr : Heard α → Heard α) (h₀ : HandlerRef) (id₀ : ContainerId)
    (course course₀ : Course (Sequence α) PositionCursor α) : Prop where
  responses : course.responses = course₀.responses
  heard : course.heard = course₀.heard.map tr
  ends : ∃ mid it, course.session = p.session mid it ∧
    course₀.session = (alone α h₀ id₀).session mid it

variable {p}

/-- Runs agree at a place if they agree as runs, with no action left out. -/
theorem agrees_iff {tr : Heard α → Heard α} {h₀ : HandlerRef} {id₀ : ContainerId}
    {course course₀ : Course (Sequence α) PositionCursor α} :
    p.Agrees tr h₀ id₀ course course₀ ↔
      course.Agrees (fun _ => true) tr (fun σ σ₀ => ∃ mid it, σ = p.session mid it ∧
        σ₀ = (alone α h₀ id₀).session mid it) course₀ := by
  have hall : (course.turns.filter fun _ => true) = course.turns :=
    List.filter_eq_self.2 fun _ _ => rfl
  constructor
  · intro h
    exact ⟨by rw [hall]; exact h.responses, h.heard, h.ends⟩
  · intro h
    have hresponses := h.responses
    rw [hall] at hresponses
    exact ⟨hresponses, h.heard, h.ends⟩

variable [BEq α] [ObjectIdentity α] {j j₀ : Judge α} {tr : Heard α → Heard α} {h₀ : HandlerRef}
  {id₀ : ContainerId} {a : Action α} {rest : List (Action α)}
  {s s' s₀ s₀' : Session (Sequence α) PositionCursor α} {w w₀ : HeardWorld α}

theorem Agrees.skip (hp : Standard.sequence.act j.observers a s w = none)
    (hq : Standard.sequence.act j₀.observers a s₀ w₀ = none)
    (h : p.Agrees tr h₀ id₀ (Standard.sequence.run j rest s w)
      (Standard.sequence.run j₀ rest s₀ w₀)) :
    p.Agrees tr h₀ id₀ (Standard.sequence.run j (a :: rest) s w)
      (Standard.sequence.run j₀ (a :: rest) s₀ w₀) := by
  rwa [Standard.run_of_none rest hp, Standard.run_of_none rest hq]

theorem Agrees.quiet {r : Except Error (Response α)}
    (hp : Standard.sequence.act j.observers a s w = some (r, s', w))
    (hq : Standard.sequence.act j₀.observers a s₀ w₀ = some (r, s₀', w₀))
    (hconcur : (Standard.sequence.run j (a :: rest) s w).Concur
      (Standard.sequence.run j₀ (a :: rest) s₀ w₀))
    (ih : (Standard.sequence.run j rest s' w).Concur (Standard.sequence.run j₀ rest s₀' w₀) →
      p.Agrees tr h₀ id₀ (Standard.sequence.run j rest s' w)
        (Standard.sequence.run j₀ rest s₀' w₀)) :
    p.Agrees tr h₀ id₀ (Standard.sequence.run j (a :: rest) s w)
      (Standard.sequence.run j₀ (a :: rest) s₀ w₀) :=
  agrees_iff.2 ((agrees_iff.1 (ih (hconcur.quiet hp hq))).quiet rfl hp hq)

variable (p j j₀ h₀ id₀) in
/-- The script agrees at the place and at a list alone, from the same elements and iterator on,
under judges that do not contradict each other. -/
def AgreesOn (view : Viewpoint) (script : List (Action α)) : Prop :=
  ∀ (mid : List α) (it : Option Stand) (w w₀ : HeardWorld α),
    isLocalScript it.isSome script →
    Standard.sequence.Sound (p.session mid it) w →
    Standard.sequence.Sound ((alone α h₀ id₀).session mid it) w₀ →
    (Standard.sequence.run j script (p.session mid it) w).Concur
      (Standard.sequence.run j₀ script ((alone α h₀ id₀).session mid it) w₀) →
    p.Agrees (Heard.throughView p.id p.handler view (p.pre.length + p.suf.length)) h₀ id₀
      (Standard.sequence.run j script (p.session mid it) w)
      (Standard.sequence.run j₀ script ((alone α h₀ id₀).session mid it) w₀)

variable {view : Viewpoint}

omit [BEq α] [ObjectIdentity α] in
theorem isSome_standAfter (command : Command α) (it : Option Stand) :
    (standAfter command it).isSome = it.isSome := by
  cases it <;> rfl

omit [BEq α] [ObjectIdentity α] in
theorem isSome_localMove? {mid : List α} {it it' : Option Stand} {m : Move} {v : Option α}
    (h : localMove? mid it m = some (v, it')) : it'.isSome = it.isSome := by
  rcases it with - | ⟨cursor, last⟩
  · cases m <;> simp [localMove?] at h
  · cases m <;> simp only [localMove?, Option.some.injEq] at h <;> split at h <;>
      obtain ⟨-, rfl⟩ := Prod.mk.inj h <;> rfl

omit [ObjectIdentity α] in
variable (p) in
/-- A mutation of the elements is a mutation of the list at the place. -/
theorem mutation_session (mid : List α) (it : Option Stand) {command : Command α}
    {f : Sequence α → Except Error (Mutation (Sequence α) α)} {m : Mutation (Sequence α) α}
    (hf : localMutation? command it = some f) (hm : f ⟨mid⟩ = .ok m) :
    Standard.sequence.mutation? (p.session mid it).frames command =
        some (Sequence.within p.pre.length p.suf.length f) ∧
      Sequence.within p.pre.length p.suf.length f (p.session mid it).container =
        .ok (m.map fun t => ⟨p.pre ++ t.items ++ p.suf⟩) := by
  constructor
  · rw [mutation?_session, hf]
    rfl
  · rw [container_session, Sequence.within_middle, hm]
    rfl

/-- A command that comes to a mutation comes to the same one at the list of the elements. -/
theorem agrees_made (hseat : p.seat = ⟨p.handler, p.id, some view⟩)
    (ih : p.AgreesOn j j₀ h₀ id₀ view rest) {mid : List α} {it : Option Stand}
    (hrest : isLocalScript it.isSome rest)
    (hs : Standard.sequence.Sound (p.session mid it) w)
    (hs₀ : Standard.sequence.Sound ((alone α h₀ id₀).session mid it) w₀) {command : Command α}
    {f : Sequence α → Except Error (Mutation (Sequence α) α)} {m : Mutation (Sequence α) α}
    (hf : localMutation? command it = some f) (hm : f ⟨mid⟩ = .ok m)
    (hconcur : (Standard.sequence.run j (.command command :: rest) (p.session mid it) w).Concur
      (Standard.sequence.run j₀ (.command command :: rest) ((alone α h₀ id₀).session mid it) w₀)) :
    p.Agrees (Heard.throughView p.id p.handler view (p.pre.length + p.suf.length)) h₀ id₀
      (Standard.sequence.run j (.command command :: rest) (p.session mid it) w)
      (Standard.sequence.run j₀ (.command command :: rest) ((alone α h₀ id₀).session mid it)
        w₀) := by
  obtain ⟨hp, hmp⟩ := p.mutation_session mid it hf hm
  obtain ⟨hq, hmq⟩ := (alone α h₀ id₀).mutation_session mid it hf hm
  have hbefore := p.before_throughView mid hseat h₀ id₀ m.proposal
  have hreports := p.reports_throughView mid hseat h₀ id₀ m.completion m.container.items
  have hafter : isLocalScript (standAfter command it).isSome rest := by
    rwa [isSome_standAfter]
  refine agrees_iff.2 (Course.Agrees.command rfl hs hs₀ hp hmp hq hmq rfl ?_ ?_ hconcur ?_ ?_)
  · intro answer
    simp only [seat_session, container_session, size_around]
    exact congrArg (Heard.asked · answer) hbefore
  · simp only [seat_session, container_session, size_around, Mutation.map]
    exact hreports
  · intro w' w₀' hs' hs₀' hconcur'
    exact agrees_iff.1 (ih mid it w' w₀' hrest hs' hs₀' hconcur')
  · intro w' w₀' hs' hs₀' hconcur'
    simp only [Mutation.map, afterward_session] at hs' hs₀' hconcur' ⊢
    exact agrees_iff.1 (ih _ _ w' w₀' hafter hs' hs₀' hconcur')

theorem agreesOn_command (hseat : p.seat = ⟨p.handler, p.id, some view⟩)
    (ih : p.AgreesOn j j₀ h₀ id₀ view rest) (command : Command α) :
    p.AgreesOn j j₀ h₀ id₀ view (.command command :: rest) := by
  intro mid it w w₀ hlocal hs hs₀ hconcur
  have hp := p.act_command mid it hs j command
  have hq := (alone α h₀ id₀).act_command mid it hs₀ j₀ command
  have hrest : isLocalScript it.isSome rest := hlocal
  cases hf : localMutation? command it with
  | none =>
    rw [hf] at hp hq
    rw [Standard.run_of_none rest hp, Standard.run_of_none rest hq] at hconcur
    exact (ih mid it w w₀ hrest hs hs₀ hconcur).skip hp hq
  | some f =>
    rw [hf, Option.map_some] at hp hq
    cases hm : f ⟨mid⟩ with
    | error e =>
      rw [hm] at hp hq
      exact .quiet hp hq hconcur (ih mid it w w₀ hrest hs hs₀)
    | ok m => exact agrees_made hseat ih hrest hs hs₀ hf hm hconcur

theorem agreesOn_query (ih : p.AgreesOn j j₀ h₀ id₀ view rest) (q : Query α) :
    p.AgreesOn j j₀ h₀ id₀ view (.query q :: rest) := by
  intro mid it w w₀ hlocal hs hs₀ hconcur
  have hp := p.act_query mid it (w := w) j q
  have hq := (alone α h₀ id₀).act_query mid it (w := w₀) j₀ q
  have hrest : isLocalScript it.isSome rest := hlocal
  cases hr : localAnswer? mid it q with
  | none =>
    rw [hr] at hp hq
    rw [Standard.run_of_none rest hp, Standard.run_of_none rest hq] at hconcur
    exact (ih mid it w w₀ hrest hs hs₀ hconcur).skip hp hq
  | some r =>
    rw [hr] at hp hq
    exact .quiet hp hq hconcur (ih mid it w w₀ hrest hs hs₀)

theorem agreesOn_move (ih : p.AgreesOn j j₀ h₀ id₀ view rest) (m : Move) :
    p.AgreesOn j j₀ h₀ id₀ view (.move m :: rest) := by
  intro mid it w w₀ hlocal hs hs₀ hconcur
  have hp := p.act_move mid it hs j m
  have hq := (alone α h₀ id₀).act_move mid it hs₀ j₀ m
  have hrest : isLocalScript it.isSome rest := hlocal
  cases hx : localMove? mid it m with
  | none =>
    rw [hx] at hp hq
    rw [Standard.run_of_none rest hp, Standard.run_of_none rest hq] at hconcur
    exact (ih mid it w w₀ hrest hs hs₀ hconcur).skip hp hq
  | some x =>
    obtain ⟨v, it'⟩ := x
    rw [hx] at hp hq
    rw [← isSome_localMove? hx] at hrest
    exact .quiet hp hq hconcur
      (ih mid it' w w₀ hrest ((hs.step hp).sound hs) ((hs₀.step hq).sound hs₀))

theorem agreesOn_openFrame (ih : p.AgreesOn j j₀ h₀ id₀ view rest) (o : Opening α) :
    p.AgreesOn j j₀ h₀ id₀ view (.openFrame o :: rest) := by
  intro mid it w w₀ hlocal hs hs₀ hconcur
  cases it with
  | some stand => simp [isLocalScript] at hlocal
  | none =>
    cases o with
    | listIterator =>
      have hp := p.act_listIterator mid (w := w) j
      have hq := (alone α h₀ id₀).act_listIterator mid (w := w₀) j₀
      exact .quiet hp hq hconcur (ih mid (some (0, none)) w w₀ hlocal
        ((hs.step hp).sound hs) ((hs₀.step hq).sound hs₀))
    | _ => simp [isLocalScript] at hlocal

theorem agreesOn_close (ih : p.AgreesOn j j₀ h₀ id₀ view rest) :
    p.AgreesOn j j₀ h₀ id₀ view (.close :: rest) := by
  intro mid it w w₀ hlocal hs hs₀ hconcur
  cases it with
  | none => simp [isLocalScript] at hlocal
  | some stand =>
    have hp := p.act_close mid (w := w) j stand
    have hq := (alone α h₀ id₀).act_close mid (w := w₀) j₀ stand
    exact .quiet hp hq hconcur (ih mid none w w₀ hlocal
      ((hs.step hp).sound hs) ((hs₀.step hq).sound hs₀))

/-- **A script at a view and at a list of the view's elements**, under judges that do not contradict
each other. -/
theorem agreesOn_script (hseat : p.seat = ⟨p.handler, p.id, some view⟩)
    (script : List (Action α)) : p.AgreesOn j j₀ h₀ id₀ view script := by
  induction script with
  | nil =>
    intro mid it w w₀ _ _ _ _
    exact ⟨rfl, rfl, mid, it, rfl, rfl⟩
  | cons a rest ih =>
    cases a with
    | command command => exact agreesOn_command hseat ih command
    | query q => exact agreesOn_query ih q
    | move m => exact agreesOn_move ih m
    | openFrame o => exact agreesOn_openFrame ih o
    | close => exact agreesOn_close ih

end Scripts

theorem exists_session {s : Session (Sequence α) PositionCursor α} {v : SubList Unit}
    {rest : List (Frame PositionCursor α)} (hv : s.frames = .subList v :: rest)
    (hin : v.segment.start + v.segment.tail ≤ s.container.items.length) :
    ∃ p : Place α, ∃ mid, s = p.session mid none ∧ p.pre.length = v.segment.start ∧
      p.suf.length = v.segment.tail ∧
      p.seat = ⟨s.root.handler, s.root.id, some ⟨v.id, v.segment.start⟩⟩ ∧
      p.handler = s.root.handler ∧ p.id = s.root.id := by
  obtain ⟨⟨list, handler, id⟩, frames⟩ := s
  obtain rfl : frames = _ := hv
  obtain ⟨pre, mid, suf, hlist, hstart, htail⟩ := Sequence.exists_middle list _ _ hin
  obtain rfl : list = _ := hlist
  have hsegment : v.segment = ⟨(), pre.length, suf.length⟩ := by rw [← hstart, ← htail]
  exact ⟨⟨pre, suf, handler, id, .subList v :: rest, .inr ⟨v, rest, rfl, hsegment⟩⟩, mid, rfl,
    hstart.symm, htail.symm, rfl, rfl, rfl⟩

theorem session_alone (c : Watched (Sequence α)) :
    c.session = (alone α c.handler c.id).session c.inner.items none := by
  obtain ⟨⟨items⟩, handler, id⟩ := c
  simp [Watched.session, session, root, alone]

end Place

namespace Standard

variable [BEq α] [ObjectIdentity α]

/-- **A script on a sub-list is the script on a list of its elements.**  Under judges that do not
contradict each other, such as judges that decide alike by the number of the question, both are
asked equally often and answer alike, errors included.  The list ends as it was around the sub-list,
with what the list of the elements ends as in between, and the events are those of that list, seen
through the sub-list. -/
theorem run_local {c : Watched (Sequence α)} {w : HeardWorld α}
    (hc : w.Presides c.handler c.id) (j : Judge α) (actions : List (Action α)) {v : SubList Unit}
    {rest : List (Frame PositionCursor α)}
    (hv : (sequence.run j actions c.session w).session.frames = .subList v :: rest)
    {c₀ : Watched (Sequence α)} {w₀ : HeardWorld α} (hc₀ : w₀.Presides c₀.handler c₀.id)
    (j₀ : Judge α)
    (hvalues : c₀.inner.items =
      (v.segment.over (sequence.run j actions c.session w).session.container).values)
    (script : List (Action α)) (hscript : isLocalScript false script)
    (hconcur :
      let here := sequence.run j actions c.session w
      (sequence.run j script here.session here.world).Concur
        (sequence.run j₀ script c₀.session w₀)) :
    let here := sequence.run j actions c.session w
    let there := sequence.run j script here.session here.world
    let alone := sequence.run j₀ script c₀.session w₀
    there.answers = alone.answers ∧ there.responses = alone.responses ∧
      there.session.container.items =
        here.session.container.items.take v.segment.start ++ alone.session.container.items ++
          here.session.container.items.drop
            (here.session.container.items.length - v.segment.tail) ∧
      there.heard = alone.heard.map (Heard.throughView c.id c.handler
        ⟨v.id, v.segment.start⟩ (v.segment.start + v.segment.tail)) := by
  intro here there alone
  have hhere := (sequence.sound_session hc).run (j := j) actions
  have hroot := (sequence.sound_session hc).root_run (j := j) actions
  have hfits := hhere.fits
  rw [hv] at hfits
  obtain ⟨p, mid, hp, hpre, hsuf, hseat, hhandler, hid⟩ := Place.exists_session hv hfits.inside
  have hcontainer : here.session.container = ⟨p.pre ++ mid ++ p.suf⟩ := by
    rw [hp, Place.container_session]
  have hmid : c₀.inner.items = mid := by
    rw [hvalues, Segment.values_eq_window _ hfits.inside]
    change here.session.container.window v.segment.start v.segment.tail = mid
    rw [hcontainer, ← hpre, ← hsuf, Sequence.window_middle]
  have halone : c₀.session = (Place.alone α c₀.handler c₀.id).session mid none := by
    rw [← hmid, ← Place.session_alone]
  rw [← hhandler, ← hid] at hseat
  have hagree := Place.agreesOn_script hseat script mid none here.world w₀ hscript
    (hp ▸ hhere) (halone ▸ sequence.sound_session hc₀) (by rw [← hp, ← halone]; exact hconcur)
  rw [← hp, ← halone] at hagree
  obtain ⟨mid', it', hend, hend₀⟩ := hagree.ends
  have hthere : there.session.container = ⟨p.pre ++ mid' ++ p.suf⟩ :=
    (congrArg Session.container hend).trans (p.container_session mid' it')
  have hitems : alone.session.container.items = mid' := by
    have h := (congrArg Session.container hend₀).trans (Place.container_session _ mid' it')
    exact (congrArg Sequence.items h).trans (List.append_nil mid')
  have hanswers := (Place.agrees_iff.1 hagree).answers (Heard.answer?_throughView _ _ _ _)
  refine ⟨hanswers, hagree.responses, ?_, ?_⟩
  · have hback : (p.pre ++ mid ++ p.suf).drop ((p.pre ++ mid ++ p.suf).length - p.suf.length) =
        p.suf := by
      rw [List.length_append, Nat.add_sub_cancel, List.drop_left]
    rw [hthere, hitems, hcontainer, ← hpre, ← hsuf, hback, List.append_assoc p.pre mid,
      List.take_left]
  · have hheard := hagree.heard
    rw [hhandler.trans hroot.1, hid.trans hroot.2, hpre, hsuf] at hheard
    exact hheard

/-- A value is added at the end of a sub-list, it is not cleared as the second question is denied, a
removal fails, and an iterator takes the first element out. -/
theorem run_local_iterating :
    let k : Standard Int (Sequence Int) PositionCursor := .sequence
    let j : Judge Int := .counting (· != 1)
    let script : List (Action Int) := [.command (.add 9), .command .clear, .command (.removeAt 5),
      .openFrame .listIterator, .move .next, .command .removeLast, .close]
    let here := k.run j [.openFrame (.subList 1 3)]
      (Watched.alone ⟨[1, 2, 3, 4]⟩).session k.world
    let there := k.run j script here.session here.world
    let alone := k.run j script (Watched.alone ⟨[2, 3]⟩).session k.world
    alone.session.container = ⟨[3, 9]⟩ ∧ there.answers = alone.answers ∧
      there.responses = alone.responses ∧
      there.session.container.items = [1] ++ alone.session.container.items ++ [4] ∧
      there.heard = alone.heard.map (Heard.throughView ⟨1⟩ ⟨0⟩ ⟨⟨2⟩, 1⟩ 2) := by
  intro k j script here there alone
  have hhere : k.Sound here.session here.world :=
    (sound_session k (presides_world k ⟨[1, 2, 3, 4]⟩)).run _
  have hconcur : there.Concur alone :=
    hhere.concur_counting (k.sound_session (presides_world k ⟨[2, 3]⟩)) (fun _ => rfl) script script
  exact ⟨by decide +kernel, run_local (v := ⟨⟨(), 1, 1⟩, ⟨1⟩, ⟨2⟩⟩)
    (presides_world k ⟨[1, 2, 3, 4]⟩) j [.openFrame (.subList 1 3)] rfl
    (presides_world k ⟨[2, 3]⟩) j rfl script rfl hconcur⟩

end Standard

end WatchedContainers
