import WatchedContainers.Proofs.RecordedRun

/-!
# Runs under loyal parties

Loyal parties may call the handlers again from inside their own calls.  The root may then have
forgotten the size that an operation was proposed with, but everything else about the operation is
as it would be.

* `Standard.Settled`: what a command does under loyal parties, and what is heard of it.
* `Standard.Reported`: the message that an accepted command is reported with.
* `Standard.reported_recordedRun`: **every message of every run under loyal parties** is one of
  these.
-/

namespace WatchedContainers

open Session (Served)

variable {ρ σ C κ α : Type}

theorem Observers.Loyal.recording {obs : Observers ρ σ α} {root : HandlerRef}
    (hl : obs.Loyal root) : obs.recording.Loyal root where
  decide party e w := by
    have h := hl.decide party e w.unrecorded
    exact ⟨h.size_le, h.role, h.binding, h.policy, h.live⟩
  notify party e w := by
    have h := hl.notify party e w.unrecorded
    exact ⟨h.size_le, h.role, h.binding, h.policy, h.live⟩

namespace Standard

variable [ObjectIdentity α]

/-- **What a command does under loyal parties.**  What is heard of it is recorded; the size in its
report is the one that the root remembers. -/
inductive Settled (k : Standard α C κ) (command : Command α) (s : Session C κ α)
    (w : RecordedWorld ρ σ α) :
    Except Error (Response α) → Session C κ α → RecordedWorld ρ σ α → Prop
  | failed (f : C → Except Error (Mutation C α)) (e : Error)
      (hf : k.mutation? s.frames command = some f) (he : f s.container = .error e) :
      Settled k command s w (.error e) s w
  | refused (f : C → Except Error (Mutation C α)) (m : Mutation C α)
      (hf : k.mutation? s.frames command = some f) (hm : f s.container = .ok m)
      (w' : RecordedWorld ρ σ α) (hkeeps : World.Keeps s.root.handler w w')
      (hrecord : w'.record =
        w.record ++ [.asked (s.seat.before m.proposal (k.size s.container)) false]) :
      Settled k command s w (.ok command.refusal) s w'
  | accepted (f : C → Except Error (Mutation C α)) (m : Mutation C α)
      (hf : k.mutation? s.frames command = some f) (hm : f s.container = .ok m) (size : Nat)
      (w' : RecordedWorld ρ σ α) (hkeeps : World.Keeps s.root.handler w w')
      (hrecord : w'.record =
        w.record ++ (.asked (s.seat.before m.proposal (k.size s.container)) true ::
          s.seat.reports m.completion size (k.size m.container))) :
      Settled k command s w (.ok m.response) (k.afterward command s m.container) w'

/-- In the turn a command was accepted, which stands for the mutation `m`, and the root's hooks were
told of it by the event `e`. -/
structure Reported (k : Standard α C κ) (t : Turn C κ α) (e : Event α) (command : Command α)
    (m : Mutation C α) : Prop where
  action : t.action = .command command
  fits : k.Fits t.before.container t.before.frames
  mutation : ∃ f, k.mutation? t.before.frames command = some f ∧ f t.before.container = .ok m
  found : m.completion.absent? = none
  response : t.response = .ok m.response
  after : t.after.container = m.container
  /-- The size beforehand is the one that the root remembers. -/
  event : ∃ size, e = t.before.seat.after m.completion size (k.size m.container)

variable {k : Standard α C κ} {obs : Observers ρ σ α} {s s' : Session C κ α}
  {w w' : RecordedWorld ρ σ α} {a : Action α} {r : Except Error (Response α)} {e : Event α}

/-- Under loyal parties a command fails, is refused or is accepted. -/
theorem settled_of_command (hl : obs.Loyal s.root.handler) (hs : k.Sound s w.shadow)
    {command : Command α} (h : k.act obs.recording (.command command) s w = some (r, s', w')) :
    k.Settled command s w r s' w' := by
  have hatt : w.shadow.Attached s.handler s.seat := by
    rw [s.handler_eq]
    exact hs.served.attached
  have hroot : s.seat.root = s.root.handler := Session.root_seatOf _ _
  have hseat := World.seated_shadow.1 hatt.seated
  have hlt := World.index_lt_of_isLive hseat.hosts.live
  obtain ⟨party, hp⟩ :=
    World.shade_eq_policy.1 ((w.hooksOfRoot_shadow _).symm.trans hatt.presides.hooks)
  have hrec : obs.recording.Loyal s.seat.root := hroot ▸ hl.recording
  rw [act_of_seated hs.fits hseat hrec, Option.map_eq_some_iff] at h
  obtain ⟨f, hf, h⟩ := h
  cases hm : f s.container with
  | error x =>
    rw [hm] at h
    cases h
    exact .failed f x hf hm
  | ok m =>
    rw [hm] at h
    let asked := s.seat.before m.proposal (k.size s.container)
    have hkept := World.ask_keeps hrec w asked
    have hrecord := World.record_ask obs hp hlt asked
    simp only [outcome] at h
    cases hask : w.ask obs.recording s.seat.root asked with
    | mk answer w₁ =>
      rw [hask] at h hkept hrecord
      cases answer with
      | false =>
        cases h
        exact .refused f m hf hm _ (hroot ▸ hkept) hrecord
      | true =>
        cases h
        have hreport := World.record_report obs (hkept.hooksOfRoot hlt hp) m.completion
          (k.size m.container)
        have hkept' := hkept.trans
          (World.report_keeps s.seat hrec w₁ m.completion (k.size m.container))
        rw [hrecord, List.append_assoc] at hreport
        exact .accepted f m hf hm _ _ (hroot ▸ hkept') hreport

namespace Settled

variable {command : Command α}

theorem keeps (h : k.Settled command s w r s' w') : World.Keeps s.root.handler w w' := by
  cases h with
  | failed => exact .refl _ _
  | refused f m hf hm w' hkeeps hrecord => exact hkeeps
  | accepted f m hf hm size w' hkeeps hrecord => exact hkeeps

theorem root_eq (h : k.Settled command s w r s' w') : s'.root.handler = s.root.handler := by
  cases h <;> rfl

theorem sound (h : k.Settled command s w r s' w') (hs : k.Sound s w.shadow) :
    k.Sound s' w'.shadow := by
  cases h with
  | failed => exact hs
  | refused f m hf hm w' hkeeps hrecord => exact ⟨Session.served_shadow hkeeps hs.served, hs.fits⟩
  | accepted f m hf hm size w' hkeeps hrecord =>
    have hserved := (k.moved_framesAfter command s.frames).served hs.served
    exact ⟨Session.served_shadow hkeeps (hserved.inner m.container), hs.fits.afterward hf hm⟩

end Settled

/-- Under loyal parties a command leaves a sound session, and what is heard of it afterwards is its
own report. -/
theorem reported_of_command (hl : obs.Loyal s.root.handler) (hs : k.Sound s w.shadow)
    {command : Command α} (h : k.act obs.recording (.command command) s w = some (r, s', w')) :
    k.Sound s' w'.shadow ∧ s'.root.handler = s.root.handler ∧
      ∀ e, .told e ∈ (⟨.command command, s, w.shadow, r, s', w'.shadow⟩ : Turn C κ α).heard →
        ∃ m, k.Reported ⟨.command command, s, w.shadow, r, s', w'.shadow⟩ e command m := by
  have hsettled := settled_of_command hl hs h
  refine ⟨hsettled.sound hs, hsettled.root_eq, fun e he => ?_⟩
  cases hsettled with
  | failed f x hf hx =>
    have hnone : (⟨.command command, s, w.shadow, .error x, s, w.shadow⟩ : Turn C κ α).heard = [] :=
      Turn.heard_eq (List.append_nil _).symm
    simp [hnone] at he
  | refused f m hf hm w' hkeeps hrecord =>
    rw [Turn.heard_eq hrecord] at he
    simp at he
  | accepted f m hf hm size w' hkeeps hrecord =>
    rw [Turn.heard_eq hrecord, Seat.reports] at he
    cases habsent : m.completion.absent? with
    | some kind => simp [habsent] at he
    | none =>
      have hevent : e = s.seat.after m.completion size (k.size m.container) := by
        simpa [habsent] using he
      exact ⟨m, rfl, hs.fits, ⟨f, hf, hm⟩, habsent, rfl, rfl, ⟨_, hevent⟩⟩

theorem unheard_of_act (hs : k.Sound s w.shadow) (ha : ∀ command, a ≠ .command command)
    (h : k.act obs.recording a s w = some (r, s', w')) :
    k.Sound s' w'.shadow ∧ s'.root.handler = s.root.handler ∧
      (⟨a, s, w.shadow, r, s', w'.shadow⟩ : Turn C κ α).heard = [] := by
  have hact := k.act_shadow obs .always s w ha
  rw [h] at hact
  have hstep := hs.step hact
  refine ⟨hstep.sound hs, hstep.root_eq.1, ?_⟩
  generalize w'.shadow = v at hstep
  cases hstep with
  | failed command | refused command | accepted command => exact absurd rfl (ha command)
  | answered | moved | notOpened | closed => exact Turn.heard_eq (List.append_nil _).symm
  | opened o f w' hf => exact Turn.heard_eq (hf.outside.trans (List.append_nil _).symm)

/-- What holds of every turn that starts from a good session, and leads to a good one, holds of
every turn of a run. -/
theorem forall_recordedRun (good : Session C κ α → RecordedWorld ρ σ α → Prop)
    {P : Turn C κ α → Prop}
    (hact : ∀ {a s w r s' w'}, good s w → k.act obs.recording a s w = some (r, s', w') →
      good s' w' ∧ P ⟨a, s, w.shadow, r, s', w'.shadow⟩)
    (actions : List (Action α)) (h : good s w) :
    ∀ t ∈ (k.recordedRun obs actions s w).turns, P t := by
  induction actions generalizing s w with
  | nil => simp [recordedRun]
  | cons a rest ih =>
    rw [recordedRun]
    cases ha : k.act obs.recording a s w with
    | none => exact ih h
    | some x =>
      obtain ⟨r, s', w'⟩ := x
      obtain ⟨hgood, hturn⟩ := hact h ha
      exact List.forall_mem_cons.2 ⟨hturn, ih hgood⟩

/-- **Every message of every run under loyal parties** reports an accepted command. -/
theorem reported_recordedRun (hl : obs.Loyal s.root.handler) (hs : k.Sound s w.shadow)
    (actions : List (Action α)) :
    ∀ t ∈ (k.recordedRun obs actions s w).turns, ∀ e, .told e ∈ t.heard →
      ∃ command m, k.Reported t e command m := by
  refine forall_recordedRun (fun s w => obs.Loyal s.root.handler ∧ k.Sound s w.shadow)
    (fun {a s w r s' w'} hgood ha => ?_) actions ⟨hl, hs⟩
  obtain ⟨hl, hs⟩ := hgood
  by_cases hcommand : ∀ command, a ≠ .command command
  · obtain ⟨hs', hroot, hheard⟩ := unheard_of_act hs hcommand ha
    exact ⟨⟨hroot ▸ hl, hs'⟩, by simp [hheard]⟩
  · obtain ⟨command, rfl⟩ : ∃ command, a = .command command := by simpa using hcommand
    obtain ⟨hs', hroot, htold⟩ := reported_of_command hl hs ha
    exact ⟨⟨hroot ▸ hl, hs'⟩, fun e he => ⟨command, htold e he⟩⟩

end Standard

end WatchedContainers
