import WatchedContainers.Proofs.Step
import WatchedContainers.Watched.Strictness

/-!
# Sessions fit among any parties

What is open fits the container after every action, whatever the handlers, the hooks and all that
they call do: they decide whether a change is made and whether a view is opened, and never what the
change is or where the view lies.

* `Standard.apply_command`: a command leaves the session alone, or makes the mutation it stands for.
* `Standard.Fits.act`: **what is open fits after every action**.
-/

namespace WatchedContainers

variable {ρ σ C κ α S β : Type}

/-- Nothing but the plan decides about the state of an operation. -/
theorem perform_state [ObjectIdentity α] [Noting S] {obs : Observers ρ σ α} {h : HandlerRef}
    {op : Operation S α β} {s s' : S} {w w' : World ρ σ} {r : Except Error β}
    (hperform : perform obs h op s w = (r, s', w')) :
    s' = s ∨ ∃ plan, op s = .ok plan ∧ s' = Noting.settle plan.commit.state := by
  unfold perform at hperform
  cases hop : op s with
  | error e =>
    rw [hop] at hperform
    cases hperform
    exact .inl rfl
  | ok plan =>
    simp only [hop] at hperform
    cases hpropose : w.propose obs h plan.proposal plan.size with
    | mk answer w₁ =>
      rw [hpropose] at hperform
      cases answer with
      | error e =>
        cases hperform
        exact .inl rfl
      | ok accepted =>
        cases accepted with
        | false =>
          cases hperform
          exact .inl rfl
        | true =>
          refine .inr ⟨plan, rfl, ?_⟩
          simp only at hperform
          split at hperform
          · cases hperform
            rfl
          · split at hperform
            · cases hperform
              rfl
            · cases hperform
              rfl

theorem SubList.eq_of_openIn [Collection C α] [Positional C α] {obs : Observers ρ σ α}
    {h : HandlerRef} {x : Segment C} {start stop : Nat} {w w' : World ρ σ} {v : SubList C}
    (hopen : openIn obs h x start stop w = (.ok v, w')) :
    v.segment = x.narrow start stop ∧ start ≤ stop ∧ stop ≤ x.length := by
  unfold openIn at hopen
  split at hopen
  · simp at hopen
  next hstop =>
    cases hmade : w.makeRangeView obs h start stop with
    | mk made w₁ =>
      rw [hmade] at hopen
      cases made with
      | error e => simp at hopen
      | ok ref =>
        simp only at hopen
        split at hopen
        · simp at hopen
        · obtain ⟨hv, -⟩ := Prod.mk.inj hopen
          obtain rfl := Except.ok.inj hv
          have hstart : ¬ start > stop := by
            intro hgt
            unfold World.makeRangeView at hmade
            simp only [hgt, if_true] at hmade
            split at hmade <;> simp at hmade
          exact ⟨rfl, Nat.not_lt.1 hstart, Nat.not_lt.1 hstop⟩

namespace Standard

variable {k : Standard α C κ} {obs : Observers ρ σ α} {s s' : Session C κ α} {w w' : World ρ σ}

/-- A command leaves the session alone, or **makes the mutation it stands for**. -/
theorem apply_command [ObjectIdentity α] {command : Command α} {r : Except Error (Response α)}
    (hs : k.Fits s.container s.frames)
    (h : k.act obs (.command command) s w = some (r, s', w')) :
    s' = s ∨ ∃ f m, k.mutation? s.frames command = some f ∧ f s.container = .ok m ∧
      s' = k.afterward command s m.container := by
  let _ := k.noting
  obtain ⟨op, hop, hact⟩ := Option.map_eq_some_iff.1 h
  have hplan := k.operation_eq s hs command
  have hop' : k.operation? command s = some op := hop
  rw [hop', Option.map_some] at hplan
  rcases perform_state hact with rfl | ⟨plan, hp, rfl⟩
  · exact .inl rfl
  right
  cases hf : k.mutation? s.frames command with
  | none => simp [hf, Mutation.planned] at hplan
  | some f =>
    rw [hf] at hplan
    have hplanned : op s = (f s.container).map
        (·.plan k.size command s.container (k.afterward command s)) := Option.some.inj hplan
    cases hm : f s.container with
    | error e => simp [hplanned, hm, Except.map] at hp
    | ok m =>
      rw [hplanned, hm] at hp
      obtain rfl := Except.ok.inj hp
      exact ⟨f, m, rfl, hm, k.settle_eq _⟩

theorem Fits.opened {o : Opening α} {f : Frame κ α} (hs : k.Fits s.container s.frames)
    (h : k.open? obs o s w = some (.ok f, w')) : k.Fits s.container (f :: s.frames) := by
  cases o with
  | subList start stop =>
    cases k with
    | sequence =>
      obtain ⟨x, hx, hopen⟩ := Option.map_eq_some_iff.1 h
      obtain ⟨v, hv, rfl⟩ := opened_of_map (x := SubList.openIn obs s.handler x start stop w) hopen
      obtain ⟨hsegment, hstart, hstop⟩ := SubList.eq_of_openIn hv
      exact hs.subList hx hstart hstop hsegment
    | queue | uniqueSet | sortedSet | bag => simp [open?, Session.open?, family] at h
  | range b =>
    cases k with
    | sortedSet =>
      obtain ⟨x, hx, hopen⟩ := Option.map_eq_some_iff.1 h
      obtain ⟨v, -, rfl⟩ := opened_of_map (x := SortedView.openIn obs s.handler x b w) hopen
      exact hs.sortedView hx v
    | sequence | queue | uniqueSet | bag => simp [open?, Session.open?, family] at h
  | subSet start stop =>
    cases k with
    | sortedSet =>
      obtain ⟨x, hx, hopen⟩ := Option.map_eq_some_iff.1 h
      obtain ⟨v, -, rfl⟩ :=
        opened_of_map (x := SortedView.openBetween obs s.handler x start stop w) hopen
      exact hs.sortedView hx v
    | sequence | queue | uniqueSet | bag => simp [open?, Session.open?, family] at h
  | iteration =>
    obtain ⟨it, hit, hopen⟩ := Option.map_eq_some_iff.1 h
    obtain rfl := Except.ok.inj (Prod.mk.inj hopen).1
    exact hs.iteration hit s.handler
  | listIterator =>
    cases k with
    | sequence =>
      obtain ⟨x, hx, hopen⟩ := Option.map_eq_some_iff.1 h
      obtain rfl := Except.ok.inj (Prod.mk.inj hopen).1
      exact hs.listIterator hx s.handler
    | queue | uniqueSet | sortedSet | bag => simp [open?, Session.open?, family] at h

/-! ### Actions and plays -/

variable [ObjectIdentity α]

/-- **What is open fits after every action**, whatever the other parties do. -/
theorem Fits.act {a : Action α} {r : Except Error (Response α)} (hs : k.Fits s.container s.frames)
    (h : k.act obs a s w = some (r, s', w')) : k.Fits s'.container s'.frames := by
  cases a with
  | command command =>
    rcases apply_command hs h with rfl | ⟨f, m, hf, hm, rfl⟩
    · exact hs
    · exact hs.afterward hf hm
  | query q =>
    obtain ⟨r, -, h⟩ := Option.map_eq_some_iff.1 h
    cases h
    exact hs
  | move m =>
    obtain ⟨⟨v, s₁⟩, hv, h⟩ := Option.map_eq_some_iff.1 h
    cases h
    obtain ⟨frames, rfl, hmoved, hfront⟩ := hs.move hv
    exact hs.of_moved hmoved hs.inside hfront
  | openFrame o =>
    obtain ⟨⟨f, w₁⟩, hf, h⟩ := Option.map_eq_some_iff.1 h
    cases f with
    | error e =>
      cases h
      exact hs
    | ok f =>
      cases h
      exact hs.opened hf
  | close =>
    obtain ⟨root, frames⟩ := s
    cases frames with
    | nil => simp [Standard.act, Session.act] at h
    | cons f rest =>
      cases Option.some.inj h
      exact hs.tail

theorem Fits.play (hs : k.Fits s.container s.frames) (actions : List (Action α)) :
    k.Fits (k.play obs actions s w).session.container (k.play obs actions s w).session.frames := by
  induction actions generalizing s w with
  | nil => exact hs
  | cons a rest ih =>
    rw [play_cons]
    cases hact : k.act obs a s w with
    | none => exact ih hs
    | some x =>
      obtain ⟨r, s', w'⟩ := x
      exact ih (hs.act hact)

end Standard

end WatchedContainers
