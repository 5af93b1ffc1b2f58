import WatchedContainers.Proofs.Run
import WatchedContainers.Watched.Behaviour

/-!
# Iterators that show a behaviour

A behaviour is played like a session: its moves and queries are not heard of, and its commands fail,
are refused or are accepted.  The judge is asked from the seat of what the iterator walks on.

* `Behaviour.run`: a behaviour under a judge.
* `Behaviour.Shown`: a session shows a behaviour if each of its moves, answers and mutations does.
* `Behaviour.Shown.run`: **a session that shows a behaviour plays every script as the behaviour
  does**, as long as its iterator is not closed.
-/

namespace WatchedContainers

variable {C Z κ α : Type}

/-! ### Behaviours under a judge -/

structure Passage (Z α : Type) where
  episodes : List (Episode α)
  state : Z

namespace Behaviour

variable [ObjectIdentity α]

def act (b : Behaviour Z α) (j : Judge α) (seat : Seat) (size : Z → Nat) (heard : List (Heard α))
    (a : Action α) (z : Z) : Option (Episode α × Z) :=
  match a with
  | .move m => (b.move m z).map fun (v, z') => (⟨a, .ok (.element v), []⟩, z')
  | .query q => (b.answer q z).map fun r => (⟨a, .ok r, []⟩, z)
  | .command command =>
    (b.mutation command z).map fun
      | .error e => (⟨a, .error e, []⟩, z)
      | .ok m =>
        let e := seat.before m.proposal (size z)
        if j heard e then
          (⟨a, .ok m.response,
            .asked e true :: seat.reports m.completion (size z) (size m.container)⟩, m.container)
        else (⟨a, .ok command.refusal, [.asked e false]⟩, z)
  | .openFrame _ | .close => none

def run (b : Behaviour Z α) (j : Judge α) (seat : Seat) (size : Z → Nat) :
    List (Action α) → List (Heard α) → Z → Passage Z α
  | [], _, z => ⟨[], z⟩
  | a :: rest, heard, z =>
    match b.act j seat size heard a z with
    | none => b.run j seat size rest heard z
    | some (e, z') =>
      let later := b.run j seat size rest (heard ++ e.heard) z'
      { later with episodes := e :: later.episodes }

theorem run_induction {b : Behaviour Z α} {j : Judge α} {seat : Seat} {size : Z → Nat}
    {motive : List (Episode α) → Z → Prop}
    (hstep : ∀ earlier heard a z e z', b.act j seat size heard a z = some (e, z') →
      motive earlier z → motive (earlier ++ [e]) z')
    (script : List (Action α)) (heard : List (Heard α)) (z : Z) (earlier : List (Episode α))
    (h : motive earlier z) :
    motive (earlier ++ (b.run j seat size script heard z).episodes)
      (b.run j seat size script heard z).state := by
  induction script generalizing heard z earlier with
  | nil =>
    rw [run, List.append_nil]
    exact h
  | cons a rest ih =>
    rw [run]
    cases hact : b.act j seat size heard a z with
    | none => exact ih heard z earlier h
    | some x =>
      obtain ⟨e, z'⟩ := x
      have hrest := ih (heard ++ e.heard) z' (earlier ++ [e]) (hstep earlier heard a z e z' hact h)
      rwa [List.append_assoc] at hrest

/-! ### Sessions that show a behaviour -/

/-- A command comes to the same failure, or to the same mutation, after which the containers
correspond. -/
inductive Carried (after : C → Z → Prop) :
    Except Error (Mutation C α) → Except Error (Mutation Z α) → Prop
  | failed (e : Error) : Carried after (.error e) (.error e)
  | made (m : Mutation Z α) (c : C) (h : after c m.container) :
      Carried after (.ok (m.map fun _ => c)) (.ok m)

omit [ObjectIdentity α] in
theorem Carried.rel_imp {after after' : C → Z → Prop} (himp : ∀ c z, after c z → after' c z)
    {x : Option (Except Error (Mutation C α))} {y : Option (Except Error (Mutation Z α))}
    (h : Option.Rel (Carried after) x y) : Option.Rel (Carried after') x y := by
  cases h with
  | none => exact .none
  | some hxy =>
    cases hxy with
    | failed e => exact .some (.failed e)
    | made m c hc => exact .some (.made m c (himp c _ hc))

/-- The sound sessions that `shows` relates to a state do what the behaviour does in that state. -/
structure Shown (b : Behaviour Z α) (k : Standard α C κ) (seat : Seat) (size : Z → Nat)
    (shows : Session C κ α → Z → Prop) : Prop where
  seat_eq : ∀ s z, shows s z → s.seat = seat
  size_eq : ∀ s z, shows s z → k.size s.container = size z
  /-- Nothing is opened on an iterator. -/
  iterating : ∀ s z, shows s z → ∀ (j : Judge α) o w, k.open? j.observers o s w = none
  move : ∀ s z w, k.Sound s w → shows s z → ∀ m,
    Option.Rel (fun x y => x.1 = y.1 ∧ shows x.2 y.2) (k.move? m s) (b.move m z)
  answer : ∀ s z, shows s z → ∀ q, k.answer? q s = b.answer q z
  mutation : ∀ s z w, k.Sound s w → shows s z → ∀ command,
    Option.Rel (Carried fun c => shows (k.afterward command s c))
      ((k.mutation? s.frames command).map (· s.container)) (b.mutation command z)

/-- A turn is an episode: it answers and is heard alike, and what it leads to corresponds. -/
structure Matches (shows : Session C κ α → Z → Prop) (a : Action α) (w : HeardWorld α)
    (x : Except Error (Response α) × Session C κ α × HeardWorld α) (y : Episode α × Z) :
    Prop where
  action : y.1.action = a
  response : y.1.response = x.1
  heard : x.2.2.outside = w.outside ++ y.1.heard
  shows : shows x.2.1 y.2

namespace Shown

variable {b : Behaviour Z α} {k : Standard α C κ} {seat : Seat} {size : Z → Nat}
  {shows : Session C κ α → Z → Prop} {j : Judge α} {s : Session C κ α} {w : HeardWorld α} {z : Z}

theorem act_move (h : b.Shown k seat size shows) (hs : k.Sound s w) (hz : shows s z) (m : Move) :
    Option.Rel (Matches shows (.move m) w) (k.act j.observers (.move m) s w)
      (b.act j seat size w.outside (.move m) z) := by
  have hmove := h.move s z w hs hz m
  change Option.Rel _ ((k.move? m s).map _) ((b.move m z).map _)
  generalize k.move? m s = x at hmove ⊢
  generalize b.move m z = y at hmove ⊢
  cases hmove with
  | none => exact .none
  | @some x y hxy =>
    obtain ⟨v, s'⟩ := x
    obtain ⟨v', z'⟩ := y
    obtain ⟨rfl, hshows⟩ := hxy
    exact .some ⟨rfl, rfl, (List.append_nil _).symm, hshows⟩

theorem act_query (h : b.Shown k seat size shows) (hz : shows s z) (q : Query α) :
    Option.Rel (Matches shows (.query q) w) (k.act j.observers (.query q) s w)
      (b.act j seat size w.outside (.query q) z) := by
  have hanswer := h.answer s z hz q
  change Option.Rel _ ((k.answer? q s).map _) ((b.answer q z).map _)
  rw [hanswer]
  cases b.answer q z with
  | none => exact .none
  | some r => exact .some ⟨rfl, rfl, (List.append_nil _).symm, hz⟩

theorem matches_made (h : b.Shown k seat size shows) (hz : shows s z) (command : Command α)
    {m : Mutation Z α} {c : C} (hc : shows (k.afterward command s c) m.container) :
    Matches shows (.command command) w (k.verdict j command s w (.ok (m.map fun _ => c)))
      (let e := seat.before m.proposal (size z)
       if j w.outside e then
         (⟨.command command, .ok m.response,
           .asked e true :: seat.reports m.completion (size z) (size m.container)⟩, m.container)
       else (⟨.command command, .ok command.refusal, [.asked e false]⟩, z)) := by
  have hbefore := h.size_eq s z hz
  have hafter : k.size c = size m.container := h.size_eq _ _ hc
  simp only [Standard.verdict, Mutation.map, h.seat_eq s z hz, hbefore, hafter]
  cases j w.outside (seat.before m.proposal (size z)) with
  | false => exact ⟨rfl, rfl, rfl, hz⟩
  | true => exact ⟨rfl, rfl, rfl, hc⟩

theorem act_command (h : b.Shown k seat size shows) (hs : k.Sound s w) (hz : shows s z)
    (command : Command α) :
    Option.Rel (Matches shows (.command command) w) (k.act j.observers (.command command) s w)
      (b.act j seat size w.outside (.command command) z) := by
  have hmutation := h.mutation s z w hs hz command
  rw [Standard.act_command hs]
  change Option.Rel _ ((k.mutation? s.frames command).map _) ((b.mutation command z).map _)
  generalize k.mutation? s.frames command = x at hmutation ⊢
  generalize b.mutation command z = y at hmutation ⊢
  cases x with
  | none =>
    cases hmutation
    exact .none
  | some f =>
    cases hmutation with
    | some hcarried =>
      refine .some ?_
      change Carried _ (f s.container) _ at hcarried
      change Matches _ _ _ (k.verdict j command s w (f s.container)) _
      generalize f s.container = x at hcarried ⊢
      cases hcarried with
      | failed e => exact ⟨rfl, rfl, (List.append_nil _).symm, hz⟩
      | made m c hc => exact h.matches_made hz command hc

/-- **An action at a session that shows a behaviour**, but for the closing of its iterator. -/
theorem act (h : b.Shown k seat size shows) (hs : k.Sound s w) (hz : shows s z) {a : Action α}
    (ha : a ≠ .close) :
    Option.Rel (Matches shows a w) (k.act j.observers a s w) (b.act j seat size w.outside a z) := by
  cases a with
  | command command => exact h.act_command hs hz command
  | query q => exact h.act_query hz q
  | move m => exact h.act_move hs hz m
  | openFrame o =>
    have hnone : k.act j.observers (.openFrame o) s w = none :=
      congrArg (Option.map _) (h.iterating s z hz j o w)
    rw [hnone]
    exact .none
  | close => exact absurd rfl ha

/-- **A session that shows a behaviour plays every script as the behaviour does**, as long as its
iterator is not closed. -/
theorem run (h : b.Shown k seat size shows) (j : Judge α) {script : List (Action α)}
    (hscript : .close ∉ script) (hs : k.Sound s w) (hz : shows s z) :
    (k.run j script s w).turns.map Turn.episode =
        (b.run j seat size script w.outside z).episodes ∧
      shows (k.run j script s w).session (b.run j seat size script w.outside z).state := by
  induction script generalizing s w z with
  | nil => exact ⟨rfl, hz⟩
  | cons a rest ih =>
    have ha : a ≠ .close := fun ha => hscript (ha ▸ List.mem_cons_self)
    have hrest : .close ∉ rest := fun hmem => hscript (List.mem_cons_of_mem _ hmem)
    have hact := h.act (j := j) hs hz ha
    rw [Standard.run, Behaviour.run]
    generalize b.act j seat size w.outside a z = y at hact ⊢
    cases hx : k.act j.observers a s w with
    | none =>
      rw [hx] at hact
      cases hact
      exact ih hrest hs hz
    | some x =>
      rw [hx] at hact
      obtain ⟨r, s', w'⟩ := x
      have hsound := (hs.step hx).sound hs
      cases hact with
      | @some _ y hmatches =>
        obtain ⟨e, z'⟩ := y
        obtain ⟨rfl, rfl, hheard, hshows⟩ := hmatches
        obtain ⟨hepisodes, hend⟩ := ih hrest hsound hshows
        rw [hheard] at hepisodes hend
        have hfirst : (Turn.mk e.action s w e.response s' w').episode = e := by
          rw [Turn.episode, Turn.heard_eq hheard]
        exact ⟨congrArg₂ List.cons hfirst hepisodes, hend⟩

end Shown

end Behaviour

end WatchedContainers
