import WatchedContainers.Proofs.Depth

/-!
# Views on views

* `Session.openView`: what is in front opens views unless an obstacle stands.
* `Session.Happens.stacks`: whatever is done, the handlers that are open stay bound and each lies
  one view below the one before.
* `Session.Descends.stacks`: after any number of tries there are that many views more, or as many as
  there may be.
* `Session.Reaches.views`: **views are opened exactly where they may**, at any time.
-/

namespace WatchedContainers

variable {ρ σ C κ α : Type}

namespace Session

variable {w w' : World ρ σ} {obs : Observers ρ σ α} [Collection C α] {fam : Family C κ α}
  {s s' : Session C κ α} {o : Opening α}

theorem opensView_of_adds {f : Frame κ α} {id : ContainerId}
    (hhandler : f.handler = ⟨w.handlers.size⟩) (hid : f.id? = some id)
    (hadds : w.Adds s.handler (some ⟨⟨w.nextId⟩, Collection.capabilities C⟩) w')
    (hnext : id = ⟨w.nextId⟩ ∧ w'.nextId = w.nextId + 1) (hmakes : World.Makes obs id w w') :
    s.OpensView obs w f w' := by
  obtain ⟨rfl, hnext⟩ := hnext
  exact ⟨hhandler, hid, hadds, hnext, hmakes⟩

variable [Traversal C κ α] [BEq α] [Noting C] [ObjectIdentity α]

theorem act_of_open {β : Type} {x : Except Error β × World ρ σ} {frame : β → Frame κ α}
    {obstacles : List Obstacle} {made : β → World ρ σ → Prop}
    (hopen : s.open? obs fam o w = some (x.1.map frame, x.2))
    (hx : match Obstacle.first? obstacles with
      | some e => x = (.error e, w)
      | none => ∃ v w', x = (.ok v, w') ∧ made v w')
    (hmade : ∀ v w', x = (.ok v, w') → made v w' → s.OpensView obs w (frame v) w') :
    match Obstacle.first? obstacles with
    | some e => s.act obs fam (.openFrame o) w = some (.error e, s, w)
    | none => ∃ f w', s.act obs fam (.openFrame o) w = some (.ok .nothing, s.push f, w') ∧
        s.OpensView obs w f w' := by
  rw [act, hopen]
  split at hx
  next => rw [hx]; rfl
  next =>
    obtain ⟨v, w', rfl, hv⟩ := hx
    exact ⟨frame v, w', rfl, hmade v w' rfl hv⟩

/-- **A view is opened** on what is in front, if that offers such views, unless an obstacle stands.
Then the session and the world stay what they are. -/
theorem openView (hb : (w.handler s.handler).isBound)
    (hcaps : ¬ (Collection.capabilities C).isEmpty) (hview : o.isView)
    (hoffered : (s.open? obs fam o w).isSome) :
    match Obstacle.first? (s.obstacles fam (w.handler s.handler) o) with
    | some e => s.act obs fam (.openFrame o) w = some (.error e, s, w)
    | none => ∃ f w', s.act obs fam (.openFrame o) w = some (.ok .nothing, s.push f, w') ∧
        s.OpensView obs w f w' := by
  cases o with
  | iteration | listIterator => simp [Opening.isView] at hview
  | subList start stop =>
    cases fam with
    | plain | bag | buffer | sorted => simp [open?] at hoffered
    | list =>
      obtain ⟨x, hx⟩ : ∃ x, s.segment? = some x := by
        simpa [open?, Option.isSome_iff_exists] using hoffered
      rw [obstacles, hx]
      refine act_of_open (congrArg (Option.map _) hx) (SubList.openIn_eq hb hcaps obs x start stop)
        fun v w' hopen hmade => ?_
      obtain ⟨hhandler, hadds⟩ := hmade
      have hid := SubList.id_of_openIn hopen
      have hmakes : World.Makes obs v.id w w' := .subList s.handler x start stop v w w' hopen
      exact opensView_of_adds hhandler rfl hadds hid hmakes
  | range bounds =>
    cases fam with
    | plain | list | bag | buffer => simp [open?] at hoffered
    | sorted =>
      obtain ⟨x, hx⟩ : ∃ x, s.range? = some x := by
        simpa [open?, Option.isSome_iff_exists] using hoffered
      refine act_of_open (congrArg (Option.map _) hx) (SortedView.openIn_eq hb hcaps obs x bounds)
        fun v w' hopen hmade => ?_
      obtain ⟨hhandler, hadds⟩ := hmade
      have hid := SortedView.id_of_openIn hopen
      have hmakes : World.Makes obs v.id w w' := .sortedView s.handler x bounds v w w' hopen
      exact opensView_of_adds hhandler rfl hadds hid hmakes
  | subSet start stop =>
    cases fam with
    | plain | list | bag | buffer => simp [open?] at hoffered
    | sorted =>
      obtain ⟨x, hx⟩ : ∃ x, s.range? = some x := by
        simpa [open?, Option.isSome_iff_exists] using hoffered
      refine act_of_open (congrArg (Option.map _) hx)
        (SortedView.openBetween_eq hb hcaps obs x start stop)
        fun v w' _ hmade => ?_
      obtain ⟨hopen, hhandler, hadds⟩ := hmade
      have hid := SortedView.id_of_openIn hopen
      have hmakes : World.Makes obs v.id w w' := .sortedView s.handler x _ v w w' hopen
      exact opensView_of_adds hhandler rfl hadds hid hmakes

/-! ### What is open -/

end Session

theorem Operation.state_of_on {S T β γ : Type} {part : T → S} {put : T → S → T} {answer : β → γ}
    {operation : Operation S α β} {t : T} {plan : Plan T α γ}
    (hplan : operation.on part put answer t = .ok plan) : ∃ x, plan.commit.state = put t x := by
  unfold Operation.on at hplan
  cases hop : operation (part t) with
  | error e =>
    rw [hop] at hplan
    cases hplan
  | ok p =>
    rw [hop] at hplan
    cases hplan
    exact ⟨_, rfl⟩

namespace Session

variable {w w' : World ρ σ} {obs : Observers ρ σ α} {fam : Family C κ α} {s s' s'' : Session C κ α}

structure SameStack (s s' : Session C κ α) : Prop where
  root : s'.root.handler = s.root.handler
  stack : s'.stack = s.stack

theorem SameStack.refl (s : Session C κ α) : SameStack s s := ⟨rfl, rfl⟩

theorem SameStack.trans (hs : SameStack s s') (hs' : SameStack s' s'') : SameStack s s'' :=
  ⟨hs'.root.trans hs.root, hs'.stack.trans hs.stack⟩

theorem sameStack_of_on {S : Type} {part : Session C κ α → S}
    {put : Session C κ α → S → Session C κ α} {operation : Operation S α (Response α)}
    {plan : Plan (Session C κ α) α (Response α)} (hput : ∀ x, SameStack s (put s x))
    (hplan : operation.on part put id s = .ok plan) : SameStack s plan.commit.state := by
  obtain ⟨x, hx⟩ := Operation.state_of_on hplan
  rw [hx]
  exact hput x

variable [Collection C α] [Traversal C κ α]

section Commands

variable [BEq α]

/-- A command changes the container and what is in front, and opens and closes nothing. -/
theorem sameStack_of_operation {command : Command α}
    {operation : Operation (Session C κ α) α (Response α)}
    (hop : s.operation? fam command = some operation) {plan : Plan (Session C κ α) α (Response α)}
    (hplan : operation s = .ok plan) : SameStack s plan.commit.state := by
  obtain ⟨root, frames⟩ := s
  cases frames with
  | nil =>
    simp only [operation?, rootOperation?] at hop
    cases hcommon : Collection.operation? (C := C) command with
    | some op =>
      rw [hcommon] at hop
      obtain rfl := Option.some.inj hop
      exact sameStack_of_on (fun _ => ⟨rfl, rfl⟩) hplan
    | none =>
      rw [hcommon] at hop
      cases fam with
      | plain | sorted => simp at hop
      | list inst | bag inst | buffer inst =>
        obtain ⟨op, -, rfl⟩ := Option.map_eq_some_iff.1 hop
        exact sameStack_of_on (fun _ => ⟨rfl, rfl⟩) hplan
  | cons f rest =>
    cases f with
    | subList v =>
      cases fam with
      | plain | bag | buffer | sorted => simp [operation?] at hop
      | list inst =>
        obtain ⟨op, -, rfl⟩ := Option.map_eq_some_iff.1 hop
        exact sameStack_of_on (fun _ => ⟨rfl, rfl⟩) hplan
    | sortedView v =>
      cases fam with
      | plain | bag | buffer | list => simp [operation?] at hop
      | sorted inst order =>
        obtain ⟨op, -, rfl⟩ := Option.map_eq_some_iff.1 hop
        exact sameStack_of_on (fun _ => ⟨rfl, rfl⟩) hplan
    | iteration it h =>
      obtain ⟨op, -, rfl⟩ := Option.map_eq_some_iff.1 hop
      exact sameStack_of_on (fun _ => ⟨rfl, rfl⟩) hplan
    | listIterator it h =>
      cases fam with
      | plain | bag | buffer | sorted => simp [operation?] at hop
      | list inst =>
        obtain ⟨op, -, rfl⟩ := Option.map_eq_some_iff.1 hop
        exact sameStack_of_on (fun _ => ⟨rfl, rfl⟩) hplan

end Commands

theorem sameStack_of_move {m : Move} {v : Option α} (hmove : s.move? fam m = some (v, s')) :
    SameStack s s' := by
  obtain ⟨root, frames⟩ := s
  cases frames with
  | nil => simp [move?] at hmove
  | cons f rest =>
    cases f with
    | subList | sortedView => simp [move?] at hmove
    | iteration it h =>
      cases m with
      | previous => simp [move?] at hmove
      | next =>
        cases hmove
        exact ⟨rfl, rfl⟩
    | listIterator it h =>
      cases fam with
      | plain | bag | buffer | sorted => cases m <;> simp [move?] at hmove
      | list inst =>
        cases m <;> cases hmove <;> exact ⟨rfl, rfl⟩

end Session

/-- Running an operation leads to a later world, and its state is what it was or what the operation
planned. -/
theorem later_perform [ObjectIdentity α] {S β : Type} [Noting S] {obs : Observers ρ σ α}
    (ho : obs.Lawful) (h : HandlerRef) (operation : Operation S α β) (s : S) (w : World ρ σ) :
    w.Later (perform obs h operation s w).2.2 ∧ ((perform obs h operation s w).2.1 = s ∨
      ∃ plan, operation s = .ok plan ∧
        (perform obs h operation s w).2.1 = Noting.settle plan.commit.state) := by
  unfold perform
  cases hop : operation s with
  | error e => exact ⟨.refl w, .inl rfl⟩
  | ok plan =>
    have hpropose := World.later_propose ho w h plan.proposal plan.size
    simp only
    cases hw : w.propose obs h plan.proposal plan.size with
    | mk r w₁ =>
      rw [hw] at hpropose
      cases r with
      | error e => exact ⟨hpropose, .inl rfl⟩
      | ok answer =>
        cases answer with
        | false => exact ⟨hpropose, .inl rfl⟩
        | true =>
          have hcollect : w.Later (w₁.collect obs (Noting.calls plan.commit.state)) :=
            hpropose.trans (.of_handlers (Nat.le_refl _) rfl)
          simp only
          cases plan.commit.report with
          | none => exact ⟨hcollect, .inr ⟨plan, rfl, rfl⟩⟩
          | some x =>
            have hconclude := hcollect.trans (World.later_conclude ho _ h x.1 x.2)
            simp only
            cases hw' : World.conclude obs h x.1 x.2 _ with
            | mk r w₂ =>
              rw [hw'] at hconclude
              cases r <;> exact ⟨hconclude, .inr ⟨plan, rfl, rfl⟩⟩

namespace Session

variable {w w' : World ρ σ} {obs : Observers ρ σ α} {fam : Family C κ α} {s s' : Session C κ α}
  [Collection C α] [Traversal C κ α] [BEq α] [Noting C] [ObjectIdentity α] {config : Config}
  {root : HandlerRef} {r : Except Error (Response α)}

/-- What opens and closes nothing leads to a later world, with the same handlers. -/
theorem later_used {a : Action α} (ho : obs.Lawful) (hopen : ∀ o, a ≠ .openFrame o)
    (hclose : a ≠ .close) (h : s.act obs fam a w = some (r, s', w')) :
    w.Later w' ∧ SameStack s s' := by
  cases a with
  | command c =>
    obtain ⟨op, hop, hx⟩ := Option.map_eq_some_iff.1 h
    obtain ⟨hlater, hstate⟩ := later_perform ho s.handler op s w
    rw [hx] at hlater hstate
    refine ⟨hlater, ?_⟩
    rcases hstate with rfl | ⟨plan, hplan, rfl⟩
    · exact .refl s'
    · exact (sameStack_of_operation hop hplan).trans ⟨rfl, rfl⟩
  | query q =>
    obtain ⟨x, -, hx⟩ := Option.map_eq_some_iff.1 h
    cases hx
    exact ⟨.refl w, .refl s⟩
  | move m =>
    obtain ⟨⟨v, s''⟩, hmove, hx⟩ := Option.map_eq_some_iff.1 h
    cases hx
    exact ⟨.refl w, sameStack_of_move hmove⟩
  | openFrame o => exact absurd rfl (hopen o)
  | close => exact absurd rfl hclose

/-! ### Stacks -/

end Session

namespace World

variable {w w' : World ρ σ} {root : HandlerRef} {config : Config} {base : Nat}

theorem Stacks.later {stack : List (HandlerRef × Bool)} (hs : w.Stacks root config base stack)
    (hw : w.Later w') : w'.Stacks root config base stack := by
  induction stack with
  | nil => exact Level.later hs hw
  | cons x below ih => exact ⟨hs.1.later hw, ih hs.2⟩

end World

namespace Session

variable {w w' : World ρ σ} {obs : Observers ρ σ α} {fam : Family C κ α} {s s' : Session C κ α}
  {config : Config} {base : Nat} {f : Frame κ α}

/-- What is in front lies below the root as deep as there are views open. -/
theorem level_of_stacks (hs : w.Stacks s.root.handler config base s.stack) :
    w.Level s.handler config (base + s.level) := by
  obtain ⟨root, frames⟩ := s
  cases frames with
  | nil => exact hs
  | cons f rest => exact hs.1

theorem stacks_of_sameStack (hs : w.Stacks s.root.handler config base s.stack)
    (hsame : SameStack s s') : w.Stacks s'.root.handler config base s'.stack := by
  rw [hsame.root, hsame.stack]
  exact hs

variable [Collection C α]

/-- A view that was opened lies one deeper than what it was opened on. -/
theorem OpensView.stacks (hf : s.OpensView obs w f w')
    (hs : w.Stacks s.root.handler config base s.stack)
    (hlt : (w.handler s.handler).depth < (w.handler s.handler).config.maxViewDepth) :
    w.Later w' ∧ w'.Stacks s.root.handler config base (s.push f).stack ∧
      (s.push f).level = s.level + 1 := by
  obtain ⟨-, hconfig, hdepth, -⟩ := level_of_stacks hs
  rw [hconfig, hdepth] at hlt
  obtain ⟨hbinding, hdepth', hconfig'⟩ := hf.adds.handler_new
  have hlater : w.Later w' := hf.adds.later (by rw [hf.nextId]; exact Nat.le_succ _)
  have hlevel : (s.push f).level = s.level + 1 := by
    simp only [level, stack, push, List.map_cons, hf.id, Option.isSome_some]
    exact List.countP_cons_of_pos rfl
  have hnew : w'.Level f.handler config (base + (s.push f).level) := by
    rw [hf.handler, hlevel]
    refine ⟨?_, hconfig'.trans hconfig, ?_, hlt⟩
    · rw [Handler.isBound, hbinding]
      rfl
    · rw [hdepth', hdepth, Nat.add_assoc]
  exact ⟨hlater, ⟨hnew, hs.later hlater⟩, hlevel⟩

variable [Traversal C κ α] [BEq α] [Noting C] [ObjectIdentity α] {r : Except Error (Response α)}

theorem act_iterator {o : Opening α} (hview : o.isView = false)
    (h : s.act obs fam (.openFrame o) w = some (r, s', w')) :
    ∃ f : Frame κ α, s' = s.push f ∧ w' = w ∧ f.handler = s.handler ∧ f.id? = none := by
  obtain ⟨⟨x, v⟩, hopen, hx⟩ := Option.map_eq_some_iff.1 h
  cases o with
  | subList | range | subSet => simp [Opening.isView] at hview
  | iteration =>
    obtain ⟨it, -, hit⟩ := Option.map_eq_some_iff.1 hopen
    cases hit
    cases hx
    exact ⟨_, rfl, rfl, rfl, rfl⟩
  | listIterator =>
    cases fam with
    | plain | bag | buffer | sorted => simp [open?] at hopen
    | list =>
      obtain ⟨it, -, hit⟩ := Option.map_eq_some_iff.1 hopen
      cases hit
      cases hx
      exact ⟨_, rfl, rfl, rfl, rfl⟩

omit [Traversal C κ α] [BEq α] [Noting C] [ObjectIdentity α] in
theorem forbids_obstacles (fam : Family C κ α) (s : Session C κ α) (x : Handler) {o : Opening α}
    (hview : o.isView) : World.Forbids x (s.obstacles fam x o) := by
  cases o with
  | iteration | listIterator => simp [Opening.isView] at hview
  | subList start stop => exact .cons nofun (World.forbids_rangeObstacles x start stop)
  | range bounds => exact .deep
  | subSet start stop => exact .cons nofun .deep

/-- What comes of opening a view: it is offered, and an obstacle stands or it is opened. -/
theorem act_openFrame (hb : (w.handler s.handler).isBound)
    (hcaps : ¬ (Collection.capabilities C).isEmpty) {o : Opening α} (hview : o.isView)
    (h : s.act obs fam (.openFrame o) w = some (r, s', w')) :
    (∃ e, Obstacle.first? (s.obstacles fam (w.handler s.handler) o) = some e ∧ r = .error e ∧
        s' = s ∧ w' = w) ∨
      Obstacle.first? (s.obstacles fam (w.handler s.handler) o) = none ∧ r = .ok .nothing ∧
        ∃ f, s' = s.push f ∧ s.OpensView obs w f w' := by
  have hoffered : (s.open? obs fam o w).isSome := by
    obtain ⟨x, hopen, -⟩ := Option.map_eq_some_iff.1 h
    rw [hopen]
    rfl
  have heq := openView hb hcaps hview hoffered
  rw [h] at heq
  split at heq
  next e hfirst =>
    cases heq
    exact .inl ⟨e, hfirst, rfl, rfl, rfl⟩
  next hfirst =>
    obtain ⟨f, v, hv, hf⟩ := heq
    cases hv
    exact .inr ⟨hfirst, rfl, f, rfl, hf⟩

/-- **Whatever is done**, the handlers that are open stay bound, and each lies one view below the
view before. -/
theorem Happens.stacks (ho : obs.Lawful) (hcaps : ¬ (Collection.capabilities C).isEmpty)
    {x x' : Session C κ α × World ρ σ} (hx : Happens obs fam x x')
    (hs : x.2.Stacks x.1.root.handler config base x.1.stack) :
    x.2.Later x'.2 ∧ x'.2.Stacks x'.1.root.handler config base x'.1.stack := by
  cases hx with
  | elsewhere s w w' hlater => exact ⟨hlater, hs.later hlater⟩
  | act a r s s' w w' h =>
    have hused : (∀ o, a ≠ .openFrame o) → a ≠ .close →
        w.Later w' ∧ w'.Stacks s'.root.handler config base s'.stack := by
      intro hopen hclose
      obtain ⟨hlater, hsame⟩ := later_used ho hopen hclose h
      exact ⟨hlater, stacks_of_sameStack (hs.later hlater) hsame⟩
    cases a with
    | command | query | move => exact hused nofun nofun
    | openFrame o =>
      cases hview : o.isView with
      | true =>
        have hdeep := (forbids_obstacles fam s (w.handler s.handler) hview).first?
        rcases act_openFrame (level_of_stacks hs).isBound hcaps hview h with
          ⟨e, -, -, rfl, rfl⟩ | ⟨hfirst, -, f, rfl, hf⟩
        · exact ⟨.refl w', hs⟩
        · rw [hfirst] at hdeep
          obtain ⟨hlater, hstacks, -⟩ := hf.stacks hs hdeep
          exact ⟨hlater, hstacks⟩
      | false =>
        obtain ⟨f, rfl, rfl, hhandler, hid⟩ := act_iterator hview h
        have hlevel := level_of_stacks hs
        have hpush : (s.push f).stack = (s.handler, false) :: s.stack := by
          simp [stack, push, hhandler, hid]
        refine ⟨.refl w', ?_⟩
        change w'.Stacks s.root.handler config base (s.push f).stack
        rw [hpush]
        exact ⟨by rwa [List.countP_cons_of_neg (by simp)], hs⟩
    | close =>
      obtain ⟨root, frames⟩ := s
      cases frames with
      | nil => cases h
      | cons f rest =>
        cases h
        exact ⟨.refl _, hs.2⟩

/-- **Whatever is done, and however often**, the handlers that are open stay bound, and each lies
one view below the view before. -/
theorem Reaches.stacks (ho : obs.Lawful) (hcaps : ¬ (Collection.capabilities C).isEmpty)
    {x x' : Session C κ α × World ρ σ} (hr : Reaches obs fam x x')
    (hs : x.2.Stacks x.1.root.handler config base x.1.stack) :
    x.2.Later x'.2 ∧ x'.2.Stacks x'.1.root.handler config base x'.1.stack := by
  induction hr with
  | refl => exact ⟨.refl _, hs⟩
  | tail _ hx ih =>
    obtain ⟨hlater, hstacks⟩ := ih
    obtain ⟨hlater', hstacks'⟩ := hx.stacks ho hcaps hstacks
    exact ⟨hlater.trans hlater', hstacks'⟩

/-- **After `n` tries there are `n` views more**, or as many as there may be. -/
theorem Descends.stacks (ho : obs.Lawful) (hcaps : ¬ (Collection.capabilities C).isEmpty) {n : Nat}
    {x x' : Session C κ α × World ρ σ} (hd : Descends obs fam n x x')
    (hs : x.2.Stacks x.1.root.handler config base x.1.stack) :
    x'.2.Stacks x'.1.root.handler config base x'.1.stack ∧
      base + x'.1.level = min (base + x.1.level + n) config.maxViewDepth := by
  induction hd with
  | refl x => exact ⟨hs, (Nat.min_eq_left (level_of_stacks hs).le).symm⟩
  | elsewhere _ hlater ih => exact ⟨(ih hs).1.later hlater, (ih hs).2⟩
  | used _ hopen hclose h ih =>
    obtain ⟨hstacks, hlevel⟩ := ih hs
    obtain ⟨hlater, hsame⟩ := later_used ho hopen hclose h
    refine ⟨stacks_of_sameStack (hstacks.later hlater) hsame, ?_⟩
    rw [← hlevel, level, hsame.stack]
    rfl
  | @tried n x s _ w _ _ o hview r h hr ih =>
    obtain ⟨hstacks, hlevel⟩ : w.Stacks s.root.handler config base s.stack ∧
      base + s.level = min (base + x.1.level + n) config.maxViewDepth := ih hs
    obtain ⟨hb, hconfig, hdepth, -⟩ := level_of_stacks hstacks
    have hfirst := (forbids_obstacles fam s (w.handler s.handler) hview).first?
    rcases act_openFrame hb hcaps hview h with ⟨e, he, rfl, rfl, rfl⟩ | ⟨hnone, rfl, f, rfl, hf⟩
    · obtain ⟨limit, rfl⟩ := hr e rfl
      rw [he] at hfirst
      have hle := Nat.le_of_not_lt fun hlt => hfirst hlt _ rfl
      rw [hconfig, hdepth] at hle
      refine ⟨hstacks, ?_⟩
      dsimp only
      omega
    · rw [hnone] at hfirst
      obtain ⟨-, hstacks', hlevel'⟩ := hf.stacks hstacks hfirst
      rw [hconfig, hdepth] at hfirst
      refine ⟨hstacks', ?_⟩
      dsimp only
      omega

/-- **Views are opened exactly where they may.**  Whatever was done with a watched container and its
views, and whatever was done elsewhere, with parties that are called and make requests themselves:
what is in front has the configuration of the root and lies as many views deep as are open, and that
is no more than the limit.

A view that is offered there is opened, whoever listens then, unless an obstacle stands.  Then the
first obstacle is the error and nothing else happens.  Otherwise one handler is made for the view,
one deeper than what it was opened on, and bound to a new identity, one that no container that was
watched and no view that was opened before has been given.  Handlers make views of handlers in the
same way.

So however often somebody tries to open a view of the view that was opened last, there are that many
views, or as many as there may be. -/
theorem Reaches.views [DecidableEq ρ] {c : Watched C} {w₀ : World ρ σ} {depth : Nat}
    (ho : obs.Ventures depth) (hw₀ : w₀.Watches c config base) (hr : Reaches obs fam (⟨c, []⟩, w₀) (s, w)) :
    w.Level s.handler config (base + s.level) ∧
    (∀ (obs' : Observers ρ σ α) (o : Opening α), o.isView → (s.open? obs' fam o w).isSome →
      match Obstacle.first? (s.obstacles fam (w.handler s.handler) o) with
      | some e => s.act obs' fam (.openFrame o) w = some (.error e, s, w)
      | none => ∃ f w', s.act obs' fam (.openFrame o) w = some (.ok .nothing, s.push f, w') ∧
          s.OpensView obs' w f w' ∧ w'.Level f.handler config (base + s.level + 1) ∧
          ∀ (other : Observers ρ σ α) id v v', World.Makes other id v v' → v'.Later w →
            f.id? ≠ some id) ∧
    (∀ h, (w.handler h).isBound → ∀ obs' : Observers ρ σ α, w.MakesViews h obs') ∧
    (∀ n s' w', Descends obs fam n (s, w) (s', w') →
      w'.Level s'.handler config (min (base + s.level + n) config.maxViewDepth)) ∧
    ∀ (obs' : Observers ρ σ α) n h w', World.Nests obs' n s.handler w h w' →
      w'.Level h config (min (base + s.level + n) config.maxViewDepth) := by
  obtain ⟨hlevel₀, hcaps⟩ := hw₀
  have hstacks₀ : w₀.Stacks c.handler config base [] := hlevel₀
  obtain ⟨-, hstacks⟩ := hr.stacks ho.lawful hcaps hstacks₀
  have hlevel : w.Level s.handler config (base + s.level) := level_of_stacks hstacks
  refine ⟨hlevel, fun obs' o hview hoffered => ?_, fun h hb obs' => ?_, fun n s' w' hd => ?_,
    fun obs' n h w' hn => hn.level hlevel⟩
  · have hopen := openView hlevel.isBound hcaps hview hoffered
    have hdeep := (forbids_obstacles fam s (w.handler s.handler) hview).first?
    cases hfirst : Obstacle.first? (s.obstacles fam (w.handler s.handler) o) with
    | some e =>
      rw [hfirst] at hopen
      exact hopen
    | none =>
      rw [hfirst] at hopen hdeep
      obtain ⟨f, w', hact, hf⟩ := hopen
      obtain ⟨-, hstacks', hlevel'⟩ := hf.stacks hstacks hdeep
      refine ⟨f, w', hact, hf, ?_, fun other id v v' hmakes hlater hid => ?_⟩
      · rw [Nat.add_assoc, ← hlevel']
        exact level_of_stacks (s := s.push f) hstacks'
      · have hlt := Nat.lt_of_lt_of_le hmakes.range.2 hlater.nextId_le
        obtain rfl : (⟨w.nextId⟩ : ContainerId) = id := Option.some.inj (hf.id.symm.trans hid)
        exact Nat.lt_irrefl _ hlt
  · exact ⟨World.makeRangeView_eq hb obs', World.makeKeyedView_eq hb obs'⟩
  · obtain ⟨hstacks', hlevel'⟩ := hd.stacks ho.lawful hcaps hstacks
    rw [← hlevel']
    exact level_of_stacks hstacks'

/-- A list is watched that may have two views, one on the other.  The listener that is asked makes a
view of the handler that asks it, and forgets it.  An element is added between the views. -/
theorem Reaches.views_two_deep :
    let silent : Observers Nat Unit Int :=
      ⟨fun _ _ w => (true, w), fun _ _ w => w, fun _ => id, fun _ => id⟩
    let obs : Observers Nat Unit Int :=
      { silent with decide := fun _ e w => (true, (w.grant silent (.keyedView e.handler)).2) }
    let registry : Registry Nat Unit Unit := ⟨Registry.standardFactories obs⟩
    let watched := Watched.withListener obs registry (⟨[5, 6, 7, 8]⟩ : Sequence Int)
      (some ⟨.listeners ⟨some 0, none, none⟩, "pair"⟩) { maxViewDepth := 2 } { outside := () }
    let fam : Family (Sequence Int) PositionCursor Int := .list inferInstance
    let step := fun (x : Session (Sequence Int) PositionCursor Int × World Nat Unit) a =>
      ((x.1.act obs fam a x.2).map Prod.snd).getD x
    let c : Watched (Sequence Int) := ⟨⟨[5, 6, 7, 8]⟩, ⟨0⟩, ⟨1⟩⟩
    let opened := step (⟨c, []⟩, watched.2) (.openFrame (.subList 1 4))
    let added := step opened (.command (.add 9))
    let x := step added (.openFrame (.subList 0 2))
    watched.1 = .ok c ∧ x.1.level = 2 ∧ x.2.handlers.size = 4 ∧
      (∀ (obs' : Observers Nat Unit Int) start stop,
        x.1.act obs' fam (.openFrame (.subList start stop)) x.2 = some (.error
          (if stop > 2 then .indexOutOfBounds stop 2
            else if start > stop then .invalidArgument (.reversedRange start stop)
            else .viewDepthExceeded 2), x)) ∧
      ∀ n s w, Descends obs fam n x (s, w) → (w.handler s.handler).depth = 2 := by
  intro silent obs registry watched fam step c opened added x
  have hsilent : silent.Ventures 0 := ⟨fun _ _ _ => .refl, fun _ _ _ => .refl⟩
  have hobs : obs.Ventures 1 :=
    ⟨fun _ e w => .single (.request silent hsilent (.keyedView e.handler) w), fun _ _ _ => .refl⟩
  have hwatched : watched = (.ok c, watched.2) := rfl
  have hwatches : watched.2.Watches c { maxViewDepth := 2 } 0 :=
    World.watches_of_withListener hwatched
  have hstep : ∀ x a, (x.1.act obs fam a x.2).isSome → Happens obs fam x (step x a) := by
    intro x a hsome
    obtain ⟨⟨r, s, w⟩, h⟩ := Option.isSome_iff_exists.1 hsome
    have heq : step x a = (s, w) := by simp only [step, h, Option.map_some, Option.getD_some]
    rw [heq]
    exact .act a r x.1 s x.2 w h
  have hopened : Happens obs fam (⟨c, []⟩, watched.2) opened :=
    hstep _ _ (by decide +kernel +zetaReduce)
  have hadded : Happens obs fam opened added := hstep _ _ (by decide +kernel +zetaReduce)
  have hx : Happens obs fam added x := hstep _ _ (by decide +kernel +zetaReduce)
  have hreaches : Reaches obs fam (⟨c, []⟩, watched.2) x :=
    ((Relation.ReflTransGen.single hopened).tail hadded).tail hx
  have hlevel : x.1.level = 2 := by decide +kernel
  have hsize : x.2.handlers.size = 4 := by decide +kernel +zetaReduce
  have hlength : x.1.segment?.map Segment.length = some 2 := by decide +kernel
  -- from here on it does not matter how `x` came about
  clear_value x
  obtain ⟨s, w⟩ := x
  obtain ⟨hfront, hopen, -, hdescends, -⟩ := Reaches.views hobs hwatches hreaches
  rw [hlevel] at hfront hdescends
  refine ⟨congrArg Prod.fst hwatched, hlevel, hsize, fun obs' start stop => ?_,
    fun n s' w' hd => ?_⟩
  · have hfirst : Obstacle.first? (s.obstacles fam (w.handler s.handler) (.subList start stop)) =
        some (if stop > 2 then .indexOutOfBounds stop 2
          else if start > stop then .invalidArgument (.reversedRange start stop)
          else .viewDepthExceeded 2) := by
      rw [obstacles, hlength]
      simp only [Option.getD_some, Obstacle.first?_cons, World.first?_rangeObstacles,
        World.first?_keyedObstacles, hfront.config, hfront.depth, decide_eq_true_eq, Nat.zero_add,
        Nat.le_refl, if_true]
      split_ifs <;> rfl
    have hoffered : (s.open? obs' fam (.subList start stop) w).isSome := by
      obtain ⟨y, hy, -⟩ := Option.map_eq_some_iff.1 hlength
      simp only [fam, open?]
      rw [hy]
      rfl
    have hact := hopen obs' (.subList start stop) rfl hoffered
    rw [hfirst] at hact
    exact hact
  · rw [(hdescends n s' w' hd).depth]
    exact Nat.min_eq_right (Nat.le_add_right 2 n)

end Session

end WatchedContainers
