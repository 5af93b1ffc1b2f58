import WatchedContainers.Proofs.RecordedRun
import WatchedContainers.Proofs.Regularity
import WatchedContainers.Proofs.Simulation

/-!
# Transcripts

What the root's hooks hear of a command has one of four forms: nothing, if the command failed its
checks; one refused question; one question, if the command was accepted and found nothing to remove;
or one question followed at once by the message that answers to it.  Nothing else is heard of.

* `Turn.Transcribed`: the four forms.
* `Event.Reports`: the message tells of the modification that was asked about.
* `Standard.run_transcribed`: **every turn of every run under discreet parties keeps to them**, and
  every message follows at once on its own question.
-/

namespace WatchedContainers

variable {ρ σ C κ α : Type}

/-! ### Questions and messages -/

/-- The event `e'` tells of the modification that the event `e` asked about: of the same kind, with
the same position, element or batch and number of copies, at the same view. -/
structure Event.Reports (e' e : Event α) : Prop where
  pre : e.phase = .pre
  post : e'.phase = .post
  observed : e'.observed = e.observed
  handler : e'.handler = e.handler
  modification : e'.modification = e.modification
  view : e'.view = e.view
  /-- Before and after, no element is named if it is known by its place only. -/
  unnamed : e.kind = .removeIndexed ∨ e.kind = .removeNext → e.subject? = none ∧ e'.subject? = none

theorem Modification.subject?_eq_none {m : Modification α}
    (h : m.kind = .removeIndexed ∨ m.kind = .removeNext) : m.subject? = none := by
  cases m with
  | removeIndexed | removeNext => rfl
  | _ => simp [kind] at h

theorem Seat.reports_after [ObjectIdentity α] (seat : Seat) {c : Completion α}
    {m : Modification α} (h : c.modification = m) (preSize postSize size : Nat) :
    (seat.after c preSize postSize).Reports (seat.before m size) := by
  subst h
  exact ⟨rfl, rfl, rfl, rfl, rfl, rfl, fun hkind =>
    ⟨Modification.subject?_eq_none hkind, Modification.subject?_eq_none hkind⟩⟩

namespace Heard

/-- Every message follows at once on the question that it answers to, which was accepted. -/
def Paired (heard : List (Heard α)) : Prop :=
  ∀ early e' late, heard = early ++ .told e' :: late →
    ∃ before e, early = before ++ [.asked e true] ∧ e'.Reports e

theorem Paired.nil : Paired ([] : List (Heard α)) := by
  intro early e' late h
  simp at h

theorem Paired.asked (e : Event α) (answer : Bool) : Paired [.asked e answer] := by
  intro early e' late h
  cases early with
  | nil => simp at h
  | cons x early => simp at h

theorem Paired.told {e e' : Event α} (h : e'.Reports e) : Paired [.asked e true, .told e'] := by
  intro early e₁ late heq
  match early with
  | [] => simp at heq
  | [x] =>
    simp only [List.cons_append, List.nil_append, List.cons.injEq, Heard.told.injEq] at heq
    obtain ⟨rfl, rfl, -⟩ := heq
    exact ⟨[], e, rfl, h⟩
  | x :: y :: early => simp at heq

theorem Paired.append {heard more : List (Heard α)} (h : Paired heard) (h' : Paired more) :
    Paired (heard ++ more) := by
  intro early e' late heq
  rcases List.append_eq_append_iff.1 heq with ⟨mid, rfl, hmore⟩ | ⟨mid, hheard, hmid⟩
  · obtain ⟨before, e, rfl, he⟩ := h' mid e' late hmore
    exact ⟨heard ++ before, e, (List.append_assoc ..).symm, he⟩
  · cases mid with
    | nil =>
      -- a message never comes first
      obtain ⟨before, e, hbefore, -⟩ := h' [] e' late hmid.symm
      simp at hbefore
    | cons x mid =>
      obtain ⟨rfl, -⟩ := List.cons.inj hmid
      exact h early e' mid hheard

end Heard

/-! ### Turns -/

namespace Turn

variable (t : Turn C κ α)

/-- **The forms in which a command is heard of.** -/
inductive Transcribed (command : Command α) : Prop
  | failed (e : Error) (hargument : e.isArgument) (hresponse : t.response = .error e)
      (hheard : t.heard = [])
  | refused (e : Event α) (hpre : e.phase = .pre) (hresponse : t.response = .ok command.refusal)
      (hheard : t.heard = [.asked e false])
  | missed (e : Event α) (hpre : e.phase = .pre) (hmiss : command.mayMiss)
      (hresponse : t.response = .ok command.refusal)
      (hsame : t.after.container = t.before.container) (hheard : t.heard = [.asked e true])
  | reported (e e' : Event α) (r : Response α) (hreports : e'.Reports e)
      (hresponse : t.response = .ok r) (hfound : command.mayMiss → r ≠ command.refusal)
      (hheard : t.heard = [.asked e true, .told e'])

/-- A command is heard of in one of the forms, and nothing else is heard of. -/
def Conforms : Prop :=
  match t.action with
  | .command command => t.Transcribed command
  | _ => t.heard = []

variable {t}

theorem Transcribed.paired {command : Command α} (h : t.Transcribed command) :
    Heard.Paired t.heard := by
  cases h with
  | failed e _ _ hheard => exact hheard ▸ .nil
  | refused e _ _ hheard => exact hheard ▸ .asked e false
  | missed e _ _ _ _ hheard => exact hheard ▸ .asked e true
  | reported e e' r hreports _ _ hheard => exact hheard ▸ .told hreports

theorem Conforms.paired (h : t.Conforms) : Heard.Paired t.heard := by
  unfold Conforms at h
  split at h
  · exact h.paired
  · exact h ▸ .nil

end Turn

namespace Standard

variable [ObjectIdentity α] {k : Standard α C κ} {obs : Observers ρ σ α} {s s' : Session C κ α}
  {v v' : HeardWorld α} {t : Turn C κ α} {turns : List (Turn C κ α)}

/-- **A step is heard of in one of the forms.** -/
theorem Resembles.conforms (h : k.Resembles t) : t.Conforms := by
  obtain ⟨a, s, w, r, s', w'⟩ := t
  have hs : k.Sound s w := h.sound
  obtain ⟨j, w₀, hstep, hheard⟩ := h.exists_step
  simp only at hstep hheard
  cases hstep with
  | failed command f e hf he =>
    exact Turn.Transcribed.failed e (isArgument_of_mutation hf he) rfl
      (hheard [] (List.append_nil _).symm)
  | refused command f m hf hm hj => exact Turn.Transcribed.refused _ rfl rfl (hheard _ rfl)
  | accepted command f m hf hm hj =>
    have hregular := regular_of_mutation hs.fits hf hm
    have hcalls := hheard _ rfl
    rw [Seat.reports] at hcalls
    by_cases habsent : m.completion.absent?.isSome
    · rw [if_pos habsent] at hcalls
      obtain ⟨hmiss, hresponse⟩ := hregular.absent_iff.1 habsent
      exact Turn.Transcribed.missed _ rfl hmiss (congrArg Except.ok hresponse)
        (hregular.unchanged habsent) hcalls
    · rw [if_neg habsent] at hcalls
      have hreports := s.seat.reports_after hregular.completes (k.size s.container)
        (k.size m.container) (k.size s.container)
      have hfound : command.mayMiss → m.response ≠ command.refusal :=
        fun hmiss hresponse => habsent (hregular.absent_iff.2 ⟨hmiss, hresponse⟩)
      exact Turn.Transcribed.reported _ _ m.response hreports rfl hfound hcalls
  | answered | moved | notOpened | closed => exact hheard [] (List.append_nil _).symm
  | opened o f w' hf => exact hheard [] (hf.outside.trans (List.append_nil _).symm)

theorem Links.paired (h : k.Links s v turns s' v') : Heard.Paired (turns.flatMap (·.heard)) := by
  induction h with
  | nil => exact .nil
  | cons t hfirst hrest ih => exact hfirst.conforms.paired.append ih

/-- **Every run keeps to the forms.**  Whatever discreet hooks the root has and whatever they veto,
every command of the run is heard of in one of the forms and nothing else is heard of at all; what
the root's hooks heard in the end is what they heard in these turns, and every message follows at
once on its own question. -/
theorem run_transcribed (k : Standard α C κ) {obs : Observers ρ σ α} {c : Watched C}
    {w : RecordedWorld ρ σ α} (hd : obs.Discreet c.handler)
    (hc : w.shadow.Presides c.handler c.id) (actions : List (Action α)) :
    let course := k.recordedRun obs actions c.session w
    (∀ t ∈ course.turns, t.Conforms) ∧
      course.world.outside = w.record ++ course.heard ∧ Heard.Paired course.heard := by
  intro course
  have hlinks := links_recordedRun hd (k.sound_session hc) actions
  exact ⟨fun t ht => (hlinks.turn ht).conforms, hlinks.outside_eq, hlinks.paired⟩

/-- Two listeners that take identities when they are called, one of which refuses to empty a list.
At a sub-list the clearing is refused, nothing is found to be removed, an element is removed by its
position, and another position is out of bounds. -/
theorem run_transcribed_keeping :
    let k : Standard Int (Sequence Int) PositionCursor := .sequence
    let listeners : Observers Nat Unit Int :=
      ⟨fun l e w => (l != 1 || e.kind != .clear, w.freshId.2), fun _ _ w => w.freshId.2,
        fun _ => id, fun _ => id⟩
    let w : RecordedWorld Nat Unit Int :=
      { nextId := 2
        handlers := #[{ role := .root ⟨0⟩, binding := some ⟨⟨1⟩, k.capabilities⟩ }]
        hooks := #[.policy 0, .managed ⟨[⟨1, .changing⟩, ⟨2, .changing⟩], [⟨2, .adding⟩], {}⟩]
        outside := ((), []) }
    let course := k.recordedRun (listeners.delegating 0 ⟨1⟩)
      [.openFrame (.subList 1 3), .command .clear, .command (.remove 1), .command (.removeAt 0),
        .command (.removeAt 7), .query .values, .close]
      (Watched.alone ⟨[1, 2, 3]⟩).session w
    course.turns.map (·.heard.length) = [0, 1, 1, 2, 0, 0, 0] ∧
      (∀ t ∈ course.turns, t.Conforms) ∧
      course.world.outside = w.record ++ course.heard ∧ Heard.Paired course.heard :=
  ⟨by decide +kernel,
    run_transcribed .sequence
      (Observers.Discreet.delegating
        ⟨fun _ _ _ => .of_outside rfl rfl, fun _ _ _ => .of_outside rfl rfl⟩ 0 ⟨1⟩)
      (World.Hosts.presides_shadow ⟨rfl, rfl, rfl⟩ rfl) _⟩

end Standard

end WatchedContainers
