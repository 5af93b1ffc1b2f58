import WatchedContainers.Proofs.Command
import WatchedContainers.Proofs.Opening

/-!
# Sound sessions

A session is sound when all that is open on it fits the container and has a handler attached to the
root, seated where the view is.  Every action keeps it so.

* `Standard.act_command`: **what a command does**: it fails and nothing is heard, or the root's
  hooks are asked once, and the mutation it stands for is made and reported if they agree.
* `Standard.Fits.afterward`: what was opened fits the container after a command.
-/

namespace WatchedContainers

variable {ρ σ C κ α : Type}

/-! ### Seats of a session -/

namespace Session

/-- Where the events of what was opened last come from.  An iterator has no seat of its own. -/
def seatOf (root : Watched C) : List (Frame κ α) → Seat
  | [] => ⟨root.handler, root.id, none⟩
  | .subList v :: _ => ⟨root.handler, root.id, some ⟨v.id, v.segment.start⟩⟩
  | .sortedView v :: _ => ⟨root.handler, root.id, some ⟨v.id, 0⟩⟩
  | .iteration _ _ :: rest | .listIterator _ _ :: rest => seatOf root rest

def seat (s : Session C κ α) : Seat := seatOf s.root s.frames

def handlerOf (root : Watched C) : List (Frame κ α) → HandlerRef
  | [] => root.handler
  | f :: _ => f.handler

theorem handler_eq (s : Session C κ α) : s.handler = handlerOf s.root s.frames := by
  obtain ⟨root, frames⟩ := s
  cases frames <;> rfl

/-- The root and all that is open have handlers attached at their seats. -/
def Served (w : HeardWorld α) (root : Watched C) : List (Frame κ α) → Prop
  | [] => w.Attached root.handler (seatOf root ([] : List (Frame κ α)))
  | f :: rest => w.Attached f.handler (seatOf root (f :: rest)) ∧ Served w root rest

namespace Served

variable {w w' : HeardWorld α} {root : Watched C} {frames : List (Frame κ α)}

theorem attached (h : Served w root frames) :
    w.Attached (handlerOf root frames) (seatOf root frames) := by
  cases frames with
  | nil => exact h
  | cons f rest => exact h.1

theorem extend (h : Served w root frames) (hw : w.Extends w') : Served w' root frames := by
  induction frames with
  | nil => exact World.Attached.extend h hw
  | cons f rest ih => exact ⟨h.1.extend hw, ih h.2⟩

end Served

theorem root_seatOf (root : Watched C) (frames : List (Frame κ α)) :
    (seatOf root frames).root = root.handler := by
  induction frames with
  | nil => rfl
  | cons f rest ih => cases f <;> first | rfl | exact ih

theorem observed_seatOf (root : Watched C) (frames : List (Frame κ α)) :
    (seatOf root frames).observed = root.id := by
  induction frames with
  | nil => rfl
  | cons f rest ih => cases f <;> first | rfl | exact ih

/-- Seats do not depend on what is in the container. -/
theorem seatOf_inner (root : Watched C) (c : C) (frames : List (Frame κ α)) :
    seatOf { root with inner := c } frames = seatOf root frames := by
  induction frames with
  | nil => rfl
  | cons f rest ih => cases f <;> first | rfl | exact ih

theorem Served.inner {w : HeardWorld α} {root : Watched C} {frames : List (Frame κ α)}
    (h : Served w root frames) (c : C) : Served w { root with inner := c } frames := by
  induction frames with
  | nil => exact h
  | cons f rest ih =>
    refine ⟨?_, ih h.2⟩
    rw [seatOf_inner]
    exact h.1

end Session

open Session (Served seatOf handlerOf)

/-! ### Windows after a mutation -/

namespace Sequence

variable {s : Sequence α} {start tail : Nat}

theorem length_window (s : Sequence α) (start tail : Nat) :
    (s.window start tail).length = s.items.length - start - tail := by
  rw [window, List.length_drop, List.length_take]
  omega

theorem length_splice (h : start + tail ≤ s.items.length) (items : List α) :
    (s.splice start tail items).items.length = start + items.length + tail := by
  simp only [splice, List.length_append, List.length_take, List.length_drop]
  omega

theorem exists_of_within {f : Sequence α → Except Error (Mutation (Sequence α) α)}
    {m : Mutation (Sequence α) α} (h : within start tail f s = .ok m) :
    ∃ m₀, f ⟨s.window start tail⟩ = .ok m₀ ∧
      m = m₀.map fun t => s.splice start tail t.items := by
  unfold within at h
  cases hf : f ⟨s.window start tail⟩ with
  | error e =>
    rw [hf] at h
    exact absurd h (by simp [Except.map])
  | ok m₀ =>
    rw [hf] at h
    exact ⟨m₀, rfl, (Except.ok.inj h).symm⟩

theorem length_within {f : Sequence α → Except Error (Mutation (Sequence α) α)}
    {m : Mutation (Sequence α) α} (hin : start + tail ≤ s.items.length)
    (h : within start tail f s = .ok m) : start + tail ≤ m.container.items.length := by
  obtain ⟨m₀, -, rfl⟩ := exists_of_within h
  change _ ≤ (s.splice start tail _).items.length
  rw [length_splice hin]
  omega

end Sequence

namespace Standard

/-! ### Commands -/

def outcome [ObjectIdentity α] (k : Standard α C κ) (obs : Observers ρ σ α) (command : Command α)
    (s : Session C κ α) (w : World ρ σ) :
    Except Error (Mutation C α) → Except Error (Response α) × Session C κ α × World ρ σ
  | .error e => (.error e, s, w)
  | .ok m =>
    match w.ask obs s.seat.root (s.seat.before m.proposal (k.size s.container)) with
    | (false, w') => (.ok command.refusal, s, w')
    | (true, w') =>
      (.ok m.response, k.afterward command s m.container,
        w'.report obs s.seat m.completion (k.size m.container))

theorem calls_eq_nil (k : Standard α C κ) (s : Session C κ α) :
    (let _ := k.noting; Noting.calls s) = [] := by
  cases k <;> rfl

theorem settle_eq (k : Standard α C κ) (s : Session C κ α) :
    (let _ := k.noting; Noting.settle s) = s := by
  cases k <;> rfl

/-- **What a command does**, if the parties are loyal. -/
theorem act_of_seated [ObjectIdentity α] {k : Standard α C κ} {obs : Observers ρ σ α}
    {s : Session C κ α} {w : World ρ σ} (hfits : k.Fits s.container s.frames)
    (hseat : w.Seated s.handler s.seat) (hl : obs.Loyal s.seat.root) (command : Command α) :
    k.act obs (.command command) s w =
      (k.mutation? s.frames command).map fun f => k.outcome obs command s w (f s.container) := by
  let _ := k.noting
  have hplan := k.operation_eq s hfits command
  change (k.operation? command s).map (fun op => perform obs s.handler op s w) = _
  cases hm : k.mutation? s.frames command with
  | none =>
    rw [hm] at hplan
    cases ho : k.operation? command s with
    | none => rfl
    | some op => simp [ho, Mutation.planned] at hplan
  | some f =>
    rw [hm] at hplan
    cases ho : k.operation? command s with
    | none => simp [ho, Mutation.planned] at hplan
    | some op =>
      rw [ho] at hplan
      have hop : op s = (f s.container).map
          (·.plan k.size command s.container (k.afterward command s)) := Option.some.inj hplan
      rw [Option.map_some, Option.map_some, hseat.perform hl, hop]
      cases f s.container with
      | error e => rfl
      | ok m =>
        simp only [k.calls_eq_nil, k.settle_eq, World.collect_nil]
        rfl

def verdict [ObjectIdentity α] (k : Standard α C κ) (j : Judge α) (command : Command α)
    (s : Session C κ α) (w : HeardWorld α) :
    Except Error (Mutation C α) → Except Error (Response α) × Session C κ α × HeardWorld α
  | .error e => (.error e, s, w)
  | .ok m =>
    let e := s.seat.before m.proposal (k.size s.container)
    if j w.outside e then
      (.ok m.response, k.afterward command s m.container,
        w.judged s.seat.root (k.size s.container) (.asked e true ::
          s.seat.reports m.completion (k.size s.container) (k.size m.container)))
    else
      (.ok command.refusal, s, w.judged s.seat.root (k.size s.container) [.asked e false])

/-- All that is open fits the container and is attached to the root. -/
structure Sound (k : Standard α C κ) (s : Session C κ α) (w : HeardWorld α) : Prop where
  served : Served w s.root s.frames
  fits : k.Fits s.container s.frames

/-- **What a command does** under a judge. -/
theorem act_command [ObjectIdentity α] {k : Standard α C κ} {s : Session C κ α} {w : HeardWorld α}
    (hs : k.Sound s w) (j : Judge α) (command : Command α) :
    k.act j.observers (.command command) s w =
      (k.mutation? s.frames command).map fun f => k.verdict j command s w (f s.container) := by
  have hatt : w.Attached s.handler s.seat := by
    rw [s.handler_eq]
    exact hs.served.attached
  rw [act_of_seated hs.fits hatt.seated (World.loyal_judge j _)]
  refine congrArg (fun g => (k.mutation? s.frames command).map g) (funext fun f => ?_)
  cases f s.container with
  | error e => rfl
  | ok m =>
    have hw := hatt.judged s.seat.root (k.size s.container)
      [.asked (s.seat.before m.proposal (k.size s.container)) true]
    simp only [outcome, verdict]
    rw [hatt.presides.ask j]
    cases j w.outside (s.seat.before m.proposal (k.size s.container)) with
    | false => rfl
    | true =>
      have hsize : (s.seat.before m.proposal (k.size s.container)).preSize =
          k.size s.container := rfl
      simp only [hsize, hw.report j, hatt.preSize_judged, World.judged_append,
        List.singleton_append, if_true]

end Standard

/-! ### Iterators that moved -/

/-- The same frames, but for an iterator in front that may have moved. -/
inductive Moved : List (Frame κ α) → List (Frame κ α) → Prop
  | refl (frames : List (Frame κ α)) : Moved frames frames
  | iteration (it it' : Iteration Unit κ α) (h : HandlerRef) (rest : List (Frame κ α)) :
      Moved (.iteration it h :: rest) (.iteration it' h :: rest)
  | listIterator (it it' : ListIterator Unit) (h : HandlerRef) (rest : List (Frame κ α))
      (hsegment : it'.segment = it.segment) :
      Moved (.listIterator it h :: rest) (.listIterator it' h :: rest)

namespace Moved

variable {frames frames' : List (Frame κ α)} {root : Watched C} {w : HeardWorld α}

theorem tail_eq (h : Moved frames frames') : frames'.tail = frames.tail := by
  cases h <;> rfl

theorem flanks_eq (h : Moved frames frames') : flanks frames' = flanks frames := by
  cases h with
  | refl => rfl
  | iteration => rfl
  | listIterator it it' h rest hsegment => rw [flanks, flanks, hsegment]

theorem nested (h : Moved frames frames') (hn : Nested frames) : Nested frames' := by
  have hflanks := h.flanks_eq
  cases h with
  | refl => exact hn
  | iteration => exact hn
  | listIterator it it' h rest => rwa [Nested, hflanks]

theorem served (h : Moved frames frames') (hs : Served w root frames) : Served w root frames' := by
  cases h <;> exact hs

end Moved

theorem ListIterator.segment_resumed {D : Type} (it : ListIterator D) (command : Command α) :
    (it.resumed command).segment = it.segment := by
  obtain ⟨segment, cursor, last⟩ := it
  cases command <;> cases last <;> rfl

namespace Standard

variable {k : Standard α C κ} {s s' : Session C κ α} {w w' : HeardWorld α}

theorem moved_framesAfter (k : Standard α C κ) (command : Command α) (frames : List (Frame κ α)) :
    Moved frames (k.framesAfter command frames) := by
  unfold framesAfter
  split
  · exact .iteration ..
  · exact .listIterator _ _ _ _ (ListIterator.segment_resumed ..)
  · exact .refl _

/-! ### Soundness after a command -/

theorem Fits.of_moved {c c' : C} {frames frames' : List (Frame κ α)} (h : k.Fits c frames)
    (hm : Moved frames frames') (hinside : (flanks frames).1 + (flanks frames).2 ≤ k.size c')
    (hfront : k.FrontFits c' frames') : k.Fits c' frames' where
  views := hm.tail_eq ▸ h.views
  nested := hm.nested h.nested
  inside := hm.flanks_eq ▸ hinside
  front := hfront

/-- What is open below the frame in front fits the container too. -/
theorem Fits.tail {c : C} {f : Frame κ α} {rest : List (Frame κ α)} (h : k.Fits c (f :: rest)) :
    k.Fits c rest where
  views g hg := h.views g (List.mem_of_mem_tail hg)
  nested := h.nested.2.2
  inside := by
    obtain ⟨hstart, htail, -⟩ := h.nested
    have := h.inside
    omega
  front := by
    cases rest with
    | nil => trivial
    | cons g rest =>
      have hg : g.isView := h.views g List.mem_cons_self
      cases g with
      | subList v => trivial
      | sortedView v => trivial
      | iteration it ref => simp [Frame.isView] at hg
      | listIterator it ref => simp [Frame.isView] at hg

/-- An iteration stays in step with the container that its removal leads to. -/
theorem InStep.afterward {c : C} {it : Iteration Unit κ α} (hit : k.InStep c it)
    {command : Command α} {f : C → Except Error (Mutation C α)} {m : Mutation C α}
    (hf : k.iterationMutation? it.current command = some f) (hm : f c = .ok m) :
    k.InStep m.container (k.resumed it) := by
  cases command with
  | removeLast =>
    obtain rfl := Option.some.inj hf
    cases hcur : it.current with
    | none => simp [hcur] at hm
    | some p =>
      obtain ⟨i, v⟩ := p
      simp only [hcur, Except.ok.injEq] at hm
      subst hm
      exact hit.resumed hcur
  | _ => simp [iterationMutation?] at hf

/-- A list iterator goes on within what its mutation leaves of its segment. -/
theorem Fits.frontFits_resumed [BEq α] {c : Sequence α} {it : ListIterator Unit} {ref : HandlerRef}
    {rest : List (Frame PositionCursor α)} (h : sequence.Fits c (.listIterator it ref :: rest))
    {command : Command α} {f : Sequence α → Except Error (Mutation (Sequence α) α)}
    {m : Mutation (Sequence α) α} (hf : ListIterator.mutation? it.cursor it.last command = some f)
    (hm : Sequence.within it.segment.start it.segment.tail f c = .ok m) :
    sequence.FrontFits m.container (.listIterator (it.resumed command) ref :: rest) := by
  obtain ⟨m₀, hm₀, rfl⟩ := Sequence.exists_of_within hm
  have hr : ListIterator.InRange it.cursor it.last
      (c.window it.segment.start it.segment.tail).length := by
    rw [Sequence.length_window]
    exact h.front.2
  have hin : it.segment.start + it.segment.tail ≤ c.items.length := h.inside
  have hlen : (c.splice it.segment.start it.segment.tail m₀.container.items).items.length -
      it.segment.start - it.segment.tail = m₀.container.items.length := by
    rw [Sequence.length_splice hin]
    omega
  rw [FrontFits, ListIterator.segment_resumed]
  refine ⟨h.front.1, ?_⟩
  change ListIterator.InRange _ _ ((c.splice _ _ _).items.length - _ - _)
  rw [hlen]
  exact hr.resumed hf hm₀

/-- **What was opened fits the container after a command**. -/
theorem Fits.afterward {c : C} {frames : List (Frame κ α)} (h : k.Fits c frames)
    {command : Command α} {f : C → Except Error (Mutation C α)} {m : Mutation C α}
    (hf : k.mutation? frames command = some f) (hm : f c = .ok m) :
    k.Fits m.container (k.framesAfter command frames) := by
  have hmoved := k.moved_framesAfter command frames
  cases frames with
  | nil => exact h.of_moved hmoved (Nat.zero_le _) trivial
  | cons g rest =>
    cases g with
    | subList v =>
      refine h.of_moved hmoved ?_ trivial
      cases k with
      | sequence =>
        obtain ⟨f, -, rfl⟩ := Option.map_eq_some_iff.1 hf
        exact Sequence.length_within h.inside hm
      | queue | uniqueSet | sortedSet | bag => simp [mutation?] at hf
    | sortedView v => exact h.of_moved hmoved (Nat.zero_le _) trivial
    | iteration it ref =>
      have hf' : k.iterationMutation? it.current command = some f := by
        cases k <;> exact hf
      have hit : k.InStep c it := h.front
      exact h.of_moved hmoved (Nat.zero_le _) (hit.afterward hf' hm)
    | listIterator it ref =>
      cases k with
      | sequence =>
        obtain ⟨f, hf', rfl⟩ := Option.map_eq_some_iff.1 hf
        exact h.of_moved hmoved (Sequence.length_within h.inside hm) (h.frontFits_resumed hf' hm)
      | queue | uniqueSet | sortedSet | bag => simp [mutation?] at hf

end Standard

end WatchedContainers
