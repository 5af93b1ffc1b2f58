import WatchedContainers.Proofs.Run

/-!
# Watched containers and bare ones

A run on a watched container, its views and its iterators does to the container what the commands
that passed their checks and were accepted do to a bare one, in the same order.  A refused command
and one that fails leave everything as it was, iterators included.

* `Turn.applied`: what a turn does to a bare container.
* `Turn.Faithful`: what a command answers, what becomes of the session, and what the root's hooks
  hear, by whether its checks pass and the judge accepts it.
* `Standard.run_simulates`: **every run on a watched container is a run on a bare one**.
-/

namespace WatchedContainers

variable {C κ α : Type}

namespace Error

/-- Errors of the arguments of a command, or of an iterator that has no element. -/
def isArgument : Error → Bool
  | indexOutOfBounds _ _ | keyOutOfRange | noCurrentElement => true
  | _ => false

end Error

namespace Turn

variable (k : Standard α C κ) (j : Judge α) (t : Turn C κ α)

def accepts (m : Mutation C α) : Bool :=
  j t.history (t.before.seat.before m.proposal (k.size t.before.container))

/-- What the turn does to a bare container: the mutation of its command, if there is one, its checks
pass and the judge accepts it. -/
def applied (c : C) : C :=
  match t.action with
  | .command command =>
    match k.mutation? t.before.frames command with
    | some f =>
      match f c with
      | .ok m => if t.accepts k j m then m.container else c
      | .error _ => c
    | none => c
  | _ => c

/-- What a command that comes to the given mutation answers, leads to and makes heard. -/
def Follows [ObjectIdentity α] (command : Command α) : Except Error (Mutation C α) → Prop
  | .error e => e.isArgument ∧ t.response = .error e ∧ t.after = t.before ∧ t.heard = []
  | .ok m =>
    let size := k.size t.before.container
    let e := t.before.seat.before m.proposal size
    if t.accepts k j m then
      t.response = .ok m.response ∧ t.after = k.afterward command t.before m.container ∧
        t.heard = .asked e true ::
          t.before.seat.reports m.completion size (k.size t.after.container)
    else t.response = .ok command.refusal ∧ t.after = t.before ∧ t.heard = [.asked e false]

/-- The turn of a command follows the mutation of the command.  Any other turn leaves the container
alone and is not heard of. -/
def Faithful [ObjectIdentity α] : Prop :=
  match t.action with
  | .command command =>
    ∃ f, k.mutation? t.before.frames command = some f ∧
      t.Follows k j command (f t.before.container)
  | _ =>
    (∀ e, t.response = .error e → e.isDetachment = false) ∧
      t.after.container = t.before.container ∧ t.heard = []

end Turn

/-! ### Errors of commands -/

section Errors

variable {command : Command α} {e : Error}

theorem Sequence.isArgument_of_mutation [BEq α]
    {f : Sequence α → Except Error (Mutation (Sequence α) α)} {s : Sequence α}
    (hf : mutation? command = some f) (he : f s = .error e) : e.isArgument := by
  cases command with
  | add | addAll | remove | removeAll | retainAll | clear =>
    obtain rfl := Option.some.inj hf
    simp at he
  | addAt | addAllAt | removeAt | set =>
    obtain rfl := Option.some.inj hf
    simp only at he
    split at he
    · simp at he
    · obtain rfl := Except.error.inj he
      rfl
  | _ => simp [mutation?, Collection.mutation?] at hf

theorem ListIterator.isArgument_of_mutation {cursor : Nat} {last : Option Nat}
    {f : Sequence α → Except Error (Mutation (Sequence α) α)} {s : Sequence α}
    (hf : mutation? cursor last command = some f) (he : f s = .error e) : e.isArgument := by
  cases command with
  | removeLast | setLast =>
    obtain rfl := Option.some.inj hf
    simp only at he
    split at he
    · simp at he
    · obtain rfl := Except.error.inj he
      rfl
  | insert =>
    obtain rfl := Option.some.inj hf
    simp at he
  | _ => simp [mutation?] at hf

theorem SortedSet.isArgument_of_mutation [BEq α] [Ord α] [Std.TransOrd α] {b : Bounds α}
    {f : SortedSet α → Except Error (Mutation (SortedSet α) α)} {s : SortedSet α}
    (hf : rangeMutation? b command = some f) (he : f s = .error e) : e.isArgument := by
  cases command with
  | add | addAll =>
    obtain rfl := Option.some.inj hf
    simp only at he
    split at he
    · simp at he
    · obtain rfl := Except.error.inj he
      rfl
  | remove | removeAll | retainAll | clear =>
    obtain rfl := Option.some.inj hf
    simp at he
  | _ => simp [rangeMutation?] at hf

theorem Sequence.error_of_within {start tail : Nat}
    {f : Sequence α → Except Error (Mutation (Sequence α) α)} {s : Sequence α}
    (h : within start tail f s = .error e) : f ⟨s.window start tail⟩ = .error e := by
  unfold within at h
  cases hf : f ⟨s.window start tail⟩ with
  | error e' =>
    rw [hf] at h
    exact h
  | ok m =>
    rw [hf] at h
    simp [Except.map] at h

theorem Standard.isArgument_of_rootMutation {k : Standard α C κ}
    {f : C → Except Error (Mutation C α)} {c : C} (hf : k.rootMutation? command = some f)
    (he : f c = .error e) : e.isArgument := by
  cases k with
  | sequence => exact Sequence.isArgument_of_mutation hf he
  | queue | uniqueSet | sortedSet | bag =>
    obtain ⟨g, -, rfl⟩ := Option.map_eq_some_iff.1 hf
    simp at he

theorem Standard.isArgument_of_iterationMutation {k : Standard α C κ} {current : Option (Nat × α)}
    {f : C → Except Error (Mutation C α)} {c : C}
    (hf : k.iterationMutation? current command = some f) (he : f c = .error e) :
    e.isArgument := by
  cases command with
  | removeLast =>
    obtain rfl := Option.some.inj hf
    simp only at he
    split at he
    · simp at he
    · obtain rfl := Except.error.inj he
      rfl
  | _ => simp [iterationMutation?] at hf

/-- **Commands fail for their arguments only**, or for want of an element to act on. -/
theorem Standard.isArgument_of_mutation {k : Standard α C κ} {frames : List (Frame κ α)}
    {f : C → Except Error (Mutation C α)} {c : C} (hf : k.mutation? frames command = some f)
    (he : f c = .error e) : e.isArgument := by
  cases frames with
  | nil => exact isArgument_of_rootMutation (k := k) hf he
  | cons g rest =>
    cases g with
    | iteration it h => exact isArgument_of_iterationMutation (k := k) hf he
    | subList v =>
      cases k with
      | sequence =>
        obtain ⟨g, hg, rfl⟩ := Option.map_eq_some_iff.1 hf
        exact Sequence.isArgument_of_mutation hg (Sequence.error_of_within he)
      | queue | uniqueSet | sortedSet | bag => simp [mutation?] at hf
    | sortedView v =>
      cases k with
      | sortedSet => exact SortedSet.isArgument_of_mutation hf he
      | sequence | queue | uniqueSet | bag => simp [mutation?] at hf
    | listIterator it h =>
      cases k with
      | sequence =>
        obtain ⟨g, hg, rfl⟩ := Option.map_eq_some_iff.1 hf
        exact ListIterator.isArgument_of_mutation hg (Sequence.error_of_within he)
      | queue | uniqueSet | sortedSet | bag => simp [mutation?] at hf

end Errors

/-! ### Turns -/

section Turns

variable [ObjectIdentity α] {k : Standard α C κ} {j : Judge α} {s s' : Session C κ α}
  {w w' : HeardWorld α} {a : Action α} {r : Except Error (Response α)}

theorem Standard.Step.applied (h : k.Step j s w a r s' w') :
    (⟨a, s, w, r, s', w'⟩ : Turn C κ α).applied k j s.container = s'.container := by
  cases h with
  | failed command f e hf he => simp only [Turn.applied, hf, he]
  | refused command f m hf hm hj =>
    simp only [Turn.applied, hf, hm]
    exact if_neg (ne_true_of_eq_false hj)
  | accepted command f m hf hm hj =>
    simp only [Turn.applied, hf, hm]
    exact if_pos hj
  | answered | moved | notOpened | opened | closed => rfl

/-- **Every step is faithful.** -/
theorem Standard.Step.faithful (h : k.Step j s w a r s' w') :
    (⟨a, s, w, r, s', w'⟩ : Turn C κ α).Faithful k j := by
  cases h with
  | failed command f e hf he =>
    refine ⟨f, hf, ?_⟩
    rw [he]
    exact ⟨isArgument_of_mutation hf he, rfl, rfl, Turn.heard_eq (List.append_nil _).symm⟩
  | refused command f m hf hm hj =>
    refine ⟨f, hf, ?_⟩
    rw [hm]
    refine (if_neg (ne_true_of_eq_false hj)).mpr ⟨rfl, rfl, Turn.heard_eq rfl⟩
  | accepted command f m hf hm hj =>
    refine ⟨f, hf, ?_⟩
    rw [hm]
    exact (if_pos hj).mpr ⟨rfl, rfl, Turn.heard_eq rfl⟩
  | answered q r hr => exact ⟨by simp, rfl, Turn.heard_eq (List.append_nil _).symm⟩
  | moved => exact ⟨by simp, rfl, Turn.heard_eq (List.append_nil _).symm⟩
  | notOpened o e he =>
    refine ⟨fun e' h' => ?_, rfl, Turn.heard_eq (List.append_nil _).symm⟩
    obtain rfl := Except.error.inj h'
    exact he
  | opened o f w' hf =>
    exact ⟨by simp, rfl, Turn.heard_eq (hf.outside.trans (List.append_nil _).symm)⟩
  | closed => exact ⟨by simp, rfl, Turn.heard_eq (List.append_nil _).symm⟩

end Turns

/-! ### Runs -/

namespace Standard

variable [ObjectIdentity α] {k : Standard α C κ} {j : Judge α} {s : Session C κ α}
  {w : HeardWorld α}

theorem container_run (hs : k.Sound s w) (actions : List (Action α)) :
    (k.run j actions s w).session.container =
      (k.run j actions s w).turns.foldl (fun c t => t.applied k j c) s.container := by
  induction actions generalizing s w with
  | nil => rfl
  | cons a rest ih =>
    rw [run]
    cases ha : k.act j.observers a s w with
    | none => exact ih hs
    | some x =>
      obtain ⟨r, s', w'⟩ := x
      have hst := hs.step ha
      have hrest := ih (hst.sound hs)
      rw [← hst.applied] at hrest
      exact hrest

/-- A command is performed wherever it comes to a mutation, even if its checks fail. -/
theorem Sound.isSome_act (hs : k.Sound s w) (j : Judge α) (command : Command α) :
    (k.act j.observers (.command command) s w).isSome = (k.mutation? s.frames command).isSome := by
  rw [act_command hs, Option.isSome_map]

/-- **Every run on a watched container is a run on a bare one.**  The container ends as the bare one
does under the mutations of the commands whose checks passed and which the judge accepted.  Every
turn answers, leads and is heard of as its action demands, and no command that comes to a mutation
is passed over. -/
theorem run_simulates (k : Standard α C κ) (j : Judge α) {c : Watched C} {w : HeardWorld α}
    (hc : w.Presides c.handler c.id) (actions : List (Action α)) :
    let course := k.run j actions c.session w
    course.session.container = course.turns.foldl (fun x t => t.applied k j x) c.inner ∧
      (∀ t ∈ course.turns, t.Faithful k j) ∧
      ∀ command, (k.act j.observers (.command command) course.session course.world).isSome =
        (k.mutation? course.session.frames command).isSome := by
  intro course
  have hs := k.sound_session hc
  refine ⟨container_run hs actions, ?_, ?_⟩
  · intro t ht
    exact (hs.turn ht).step.faithful
  · intro command
    exact (hs.run actions).isSome_act j command

/-- A judge that refuses to empty a container: at a sub-list the clearing is refused and the removal
is accepted. -/
theorem run_simulates_keeping :
    let k : Standard Int (Sequence Int) PositionCursor := .sequence
    let j : Judge Int := fun _ e => e.kind != .clear
    let course := k.run j
      [.openFrame (.subList 1 3), .command .clear, .command (.removeAt 0), .close]
      (Watched.alone ⟨[1, 2, 3]⟩).session k.world
    course.session.container = ⟨[1, 3]⟩ ∧
      course.session.container = course.turns.foldl (fun x t => t.applied k j x) ⟨[1, 2, 3]⟩ ∧
      (∀ t ∈ course.turns, t.Faithful k j) ∧
      ∀ command, (k.act j.observers (.command command) course.session course.world).isSome =
        (k.mutation? course.session.frames command).isSome :=
  ⟨rfl, run_simulates .sequence _ (presides_world .sequence ⟨[1, 2, 3]⟩) _⟩

end Standard

end WatchedContainers
