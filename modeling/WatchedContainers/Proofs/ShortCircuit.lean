import Mathlib.Data.List.Forall2
import WatchedContainers.Handler.Consultation
import WatchedContainers.Handler.Recording
import WatchedContainers.Proofs.Revision
import WatchedContainers.Watched.Run

/-!
# Short circuits

Whether the first veto ends a consultation makes no difference but to those who would have been
asked after it.

* `consult_impartial`: who is asked, and what is answered, with and without the short circuit.
* `Panel.Impartial.beats_shortCircuit`: **runs with and without it agree** in everything else.
-/

namespace WatchedContainers

variable {ρ σ C κ α : Type}

/-- Whoever is asked answers by the event alone and makes no requests.  Whoever is told may do what
it likes, but takes no notice of what others were asked. -/
structure Panel.Impartial (panel : Panel ρ α) (verdict : ρ → Event α → Bool) : Prop where
  asked : ∀ log l e, panel.asked log l e = .done (verdict l e)
  told : ∀ log log' l e, (log.filter fun m => !m.isAsking) = (log'.filter fun m => !m.isAsking) →
    panel.told log l e = panel.told log' l e

/-- The same happened with and without the short circuit, with the same results; the listeners were
told the same; and of each event those were asked who come up to and with the first veto. -/
structure Beat.Curtails [DecidableEq ρ] (short exhaustive : Beat ρ C κ α) : Prop where
  happening : short.happening = exhaustive.happening
  before : short.before = exhaustive.before
  result : short.result = exhaustive.result
  after : short.after = exhaustive.after
  told : short.worldAfter.outside.filterMap Minute.told? =
    exhaustive.worldAfter.outside.filterMap Minute.told?
  consultations : Minute.consultations short.worldAfter.outside =
    (Minute.consultations exhaustive.worldAfter.outside).map (·.curtailed)
  /-- Handlers and listeners are the same. -/
  world : short.worldAfter.withOutside () =
    (exhaustive.worldAfter.revised (.shortCircuiting true)).withOutside ()

/-! ### Curtailed minutes -/

/-- The minutes without the questions that were asked after a veto to the same event. -/
def Minute.curtail : Bool → List (Minute ρ α) → List (Minute ρ α)
  | _, [] => []
  | vetoed, asked l e :: rest =>
    if vetoed then curtail vetoed rest else asked l e :: curtail vetoed rest
  | vetoed, answered l e b :: rest =>
    if vetoed then curtail vetoed rest else answered l e b :: curtail (!b) rest
  | _, raised e :: rest => raised e :: curtail false rest
  | _, told l e :: rest => told l e :: curtail false rest

namespace Minute

variable (vetoed : Bool) (log rest : List (Minute ρ α))

theorem curtail_raised (e : Event α) :
    curtail vetoed (log ++ raised e :: rest) =
      curtail vetoed log ++ raised e :: curtail false rest := by
  induction log generalizing vetoed with
  | nil => rfl
  | cons m log ih => cases m <;> cases vetoed <;> simp [curtail, ih]

theorem curtail_told (l : ρ) (e : Event α) :
    curtail vetoed (log ++ [told l e]) = curtail vetoed log ++ [told l e] := by
  induction log generalizing vetoed with
  | nil => rfl
  | cons m log ih => cases m <;> cases vetoed <;> simp [curtail, ih]

theorem filter_curtail :
    ((curtail vetoed log).filter fun m => !m.isAsking) = log.filter fun m => !m.isAsking := by
  induction log generalizing vetoed with
  | nil => rfl
  | cons m log ih => cases m <;> cases vetoed <;> simp [curtail, ih]

theorem told_curtail : (curtail vetoed log).filterMap told? = log.filterMap told? := by
  induction log generalizing vetoed with
  | nil => rfl
  | cons m log ih => cases m <;> cases vetoed <;> simp [curtail, List.filterMap_cons, told?, ih]

theorem calls_curtail :
    calls (curtail vetoed log) = if vetoed then [] else throughVeto (calls log) := by
  induction log generalizing vetoed with
  | nil => cases vetoed <;> rfl
  | cons m log ih =>
    cases m with
    | raised | told => cases vetoed <;> rfl
    | asked l e => cases vetoed <;> simp [curtail, calls, ih]
    | answered l e b => cases vetoed <;> cases b <;> simp [curtail, calls, throughVeto, ih]

theorem consultations_curtail :
    consultations (curtail vetoed log) = (consultations log).map (·.curtailed) := by
  induction log generalizing vetoed with
  | nil => rfl
  | cons m log ih =>
    cases m with
    | raised e =>
      rw [curtail, consultations, consultations, calls_curtail, ih]
      split <;> rfl
    | asked l e => cases vetoed <;> simp [curtail, consultations, ih]
    | answered l e b => cases vetoed <;> simp [curtail, consultations, ih]
    | told l e => simp [curtail, consultations, ih]

end Minute

/-! ### Consultations -/

def callsMade (shortCircuit : Bool) (calls : List (ρ × Bool)) : List (ρ × Bool) :=
  if shortCircuit then throughVeto calls else calls

theorem throughVeto_throughVeto (calls : List (ρ × Bool)) :
    throughVeto (throughVeto calls) = throughVeto calls := by
  induction calls with
  | nil => rfl
  | cons call rest ih =>
    obtain ⟨l, b⟩ := call
    cases b <;> simp [throughVeto, ih]

theorem Minute.curtail_ofCalls (e : Event α) (calls : List (ρ × Bool)) :
    curtail false (ofCalls e calls) = ofCalls e (throughVeto calls) := by
  have hvetoed : ∀ calls : List (ρ × Bool), curtail true (ofCalls e calls) = [] := by
    intro calls
    induction calls with
    | nil => rfl
    | cons call rest ih => simpa [ofCalls, curtail] using ih
  induction calls with
  | nil => rfl
  | cons call rest ih =>
    obtain ⟨l, b⟩ := call
    cases b with
    | true => simpa [ofCalls, curtail, throughVeto] using ih
    | false => simpa [ofCalls, curtail, throughVeto] using hvetoed rest

/-- The short circuit is on, and the minutes tell of nothing that was asked after a veto. -/
def Revision.curtailing : Revision ρ (List (Minute ρ α)) where
  config c := { c with shortCircuit := true }
  outside := Minute.curtail false

namespace Panel.Impartial

variable [DecidableEq ρ] [ObjectIdentity α] {panel : Panel ρ α} {verdict : ρ → Event α → Bool}
  (hp : panel.Impartial verdict)

include hp

/-- Who is asked, and what is answered. -/
theorem consult_eq (depth : Nat) (shortCircuit : Bool) (e : Event α) (ls : List ρ)
    (w : MinutedWorld ρ α) :
    consult (panel.observers (depth + 1)) shortCircuit e ls w =
      (ls.all (verdict · e), w.minutes (Minute.ofCalls e
        (callsMade shortCircuit (ls.map fun l => (l, verdict l e))))) := by
  induction ls generalizing shortCircuit w with
  | nil =>
    cases shortCircuit <;> simp [consult, callsMade, throughVeto, Minute.ofCalls, World.minutes]
  | cons l rest ih =>
    have hdecide : (panel.observers (depth + 1)).decide l e w =
        (verdict l e, w.minutes [.asked l e, .answered l e (verdict l e)]) := by
      simp [observers, hp.asked, World.follow, World.minute, World.minutes]
    rw [consult, hdecide]
    cases hanswer : verdict l e <;> cases shortCircuit <;>
      simp [ih, hanswer, World.minutes, Minute.ofCalls, callsMade, throughVeto]

/-- In the curtailed world the listeners are asked about an event that was just raised up to the
first veto, and the answer is the same. -/
theorem decide_curtailed (depth : Nat) (hooks : Hooks ρ) (e : Event α) (w : MinutedWorld ρ α) :
    let v : Revision ρ (List (Minute ρ α)) := .curtailing
    (hooks.revised v).decide (panel.observers (depth + 1)) e ((w.minute (.raised e)).revised v) =
      ((hooks.decide (panel.observers (depth + 1)) e (w.minute (.raised e))).1,
        (hooks.decide (panel.observers (depth + 1)) e (w.minute (.raised e))).2.revised v) := by
  intro v
  have hmade : ∀ shortCircuit (calls : List (ρ × Bool)),
      ((w.minute (.raised e)).minutes (Minute.ofCalls e (callsMade shortCircuit calls))).revised v =
        ((w.minute (.raised e)).revised v).minutes (Minute.ofCalls e (throughVeto calls)) := by
    intro shortCircuit calls
    have hcalls : throughVeto (callsMade shortCircuit calls) = throughVeto calls := by
      cases shortCircuit <;> simp [callsMade, throughVeto_throughVeto]
    have houtside : Minute.curtail false
        (w.outside ++ [.raised e] ++ Minute.ofCalls e (callsMade shortCircuit calls)) =
        Minute.curtail false (w.outside ++ [.raised e]) ++
          Minute.ofCalls e (throughVeto calls) := by
      rw [List.append_assoc, List.singleton_append, Minute.curtail_raised, Minute.curtail_raised,
        Minute.curtail_ofCalls, hcalls, List.append_assoc]
      rfl
    exact congrArg (World.mk _ _ _) houtside
  cases hooks with
  | acceptAll => rfl
  | policy l =>
    have hone : ∀ w : MinutedWorld ρ α, (panel.observers (depth + 1)).decide l e w =
        (verdict l e, w.minutes (Minute.ofCalls e (callsMade true [(l, verdict l e)]))) := by
      intro w
      simp [observers, hp.asked, World.follow, World.minute, World.minutes, Minute.ofCalls,
        callsMade, throughVeto]
    change (panel.observers (depth + 1)).decide l e _ = _
    simp only [Hooks.decide, hone, hmade]
    rfl
  | managed s =>
    have hpre : (s.revised v).pre = s.pre := List.filter_eq_self.2 fun r _ => rfl
    simp only [Hooks.revised, Hooks.decide, hpre, hp.consult_eq, hmade]
    rfl

theorem notify_curtailed {depth : Nat} {v : Revision ρ (List (Minute ρ α))}
    (hv : v = .curtailing) (hinner : (panel.observers depth).Revises v (panel.observers depth))
    (hooks : Hooks ρ) (e : Event α) (w : MinutedWorld ρ α) :
    (hooks.revised v).notify (panel.observers (depth + 1)) e (w.revised v) =
      (hooks.notify (panel.observers (depth + 1)) e w).revised v := by
  have htold : ∀ l (w : MinutedWorld ρ α),
      (panel.observers (depth + 1)).notify l e (w.revised v) =
        ((panel.observers (depth + 1)).notify l e w).revised v := by
    intro l w
    have hmemory : panel.told (w.revised v).outside l e = panel.told w.outside l e := by
      subst hv
      exact hp.told _ _ _ _ (Minute.filter_curtail false w.outside)
    have hminute : (w.revised v).minute (.told l e) = (w.minute (.told l e)).revised v := by
      subst hv
      exact congrArg (World.mk _ _ _) (Minute.curtail_told false w.outside l e).symm
    have hconduct : (panel.told w.outside l e).Exceeds v.hidden (panel.told w.outside l e) := by
      subst hv
      exact Conduct.exceeds_none _
    simp only [observers, hmemory, hminute, World.follow_revised _ hinner hconduct]
  have hinform : ∀ ls (w : MinutedWorld ρ α),
      inform (panel.observers (depth + 1)) e ls (w.revised v) =
        (inform (panel.observers (depth + 1)) e ls w).revised v := by
    intro ls
    induction ls with
    | nil => exact fun _ => rfl
    | cons l rest ih =>
      intro w
      rw [inform, inform, htold, ih]
  cases hooks with
  | acceptAll => rfl
  | policy l =>
    subst hv
    exact htold l w
  | managed s =>
    have hpost : (s.revised v).post = s.post := by
      subst hv
      exact List.filter_eq_self.2 fun r _ => rfl
    simp only [Hooks.revised, Hooks.notify, hpost, hinform]

theorem revises (depth : Nat) :
    (panel.observers depth).Revises .curtailing (panel.observers depth) := by
  have hraised : ∀ (log : List (Minute ρ α)) e,
      Minute.curtail false (log ++ [.raised e]) = Minute.curtail false log ++ [.raised e] :=
    fun log e => Minute.curtail_raised false log [] e
  induction depth with
  | zero => exact Panel.revises_zero hraised
  | succ depth ih =>
    exact Panel.revises hraised (hp.decide_curtailed depth) (hp.notify_curtailed rfl ih)

/-! ### Runs -/

omit hp [ObjectIdentity α] in
/-- Without minutes, the short circuit is all there is to curtail. -/
theorem revised_shortCircuiting (w : World ρ σ) :
    (w.revised (.shortCircuiting true)).withOutside ([] : List (Minute ρ α)) =
      ((w.revised (.shortCircuiting false)).withOutside []).revised .curtailing := by
  have hhooks : ∀ hooks : Hooks ρ, hooks.revised (.shortCircuiting true : Revision ρ σ) =
      (hooks.revised (.shortCircuiting false : Revision ρ σ)).revised
        (.curtailing : Revision ρ (List (Minute ρ α))) := by
    intro hooks
    cases hooks with
    | acceptAll => rfl
    | policy l => simp [Hooks.revised, Revision.shortCircuiting, Revision.curtailing]
    | managed s =>
      simp [Hooks.revised, ManagedHooks.revised, Registration.visible, Revision.shortCircuiting,
        Revision.curtailing]
  simp only [World.withOutside, World.map, World.revised, Array.map_map, Function.comp_def, id,
    hhooks]
  rfl

variable [Collection C α] [Traversal C κ α] [BEq α] [Noting C]

/-- **Short circuits make no difference** to the results of what is done, to the containers, and to
the listeners that are told; and of each event those are asked who come up to and with the first
veto.  The run is any sequence of actions on the container, its views and its iterators, and of
requests to the handlers; listeners that are told may make requests themselves, nested to any
depth. -/
theorem beats_shortCircuit (fam : Family C κ α) (depth : Nat) (script : List (Happening ρ α))
    (s : Session C κ α) (w : World ρ σ) :
    let run b := panel.beats fam depth script s
      ((w.revised (.shortCircuiting b)).withOutside [])
    List.Forall₂ Beat.Curtails (run true) (run false) := by
  intro run
  have hinvolves : ∀ x : Happening ρ α,
      x.involves (Revision.curtailing : Revision ρ (List (Minute ρ α))).hidden = false := by
    intro x
    cases x <;> rfl
  have hrun : run true = (run false).map (·.revised .curtailing) := by
    have hbeats := beats_revised (hp.revises depth) fam script s
      ((w.revised (.shortCircuiting false)).withOutside [])
    rw [← revised_shortCircuiting, List.filter_eq_self.2 fun x _ => by simp [hinvolves],
      List.filter_eq_self.2 fun b _ => by simp [hinvolves]] at hbeats
    exact hbeats
  rw [hrun]
  generalize run false = beats
  induction beats with
  | nil => exact .nil
  | cons b rest ih =>
    refine .cons ⟨rfl, rfl, rfl, rfl, ?_, ?_, ?_⟩ ih
    · exact Minute.told_curtail false b.worldAfter.outside
    · exact Minute.consultations_curtail false b.worldAfter.outside
    · rfl

end Panel.Impartial

/-- A list watched by three listeners that are asked, the second of which lets nothing be cleared,
and by one that is told of additions and then proposes to clear the list.  Through a sub-list
something is added and then everything is cleared, without success. -/
theorem Panel.Impartial.beats_shortCircuit_vetoed :
    let verdict : Nat → Event Int → Bool := fun l e => l != 1 || e.kind != .clear
    let panel : Panel Nat Int :=
      ⟨fun _ l e => .done (verdict l e),
        fun _ _ _ => .call (.propose ⟨0⟩ .clear 1) fun _ => .done ()⟩
    let w : World Nat Unit :=
      { (Standard.sequence (α := Int)).world with
        hooks := #[.managed ⟨[⟨0, .changing⟩, ⟨1, .clearing⟩, ⟨2, .changing⟩], [⟨3, .adding⟩], {}⟩]
        outside := () }
    let script : List (Happening Nat Int) :=
      [.action (.openFrame (.subList 0 1)), .action (.command (.add 7)), .action (.command .clear)]
    let run b : List (Beat Nat (Sequence Int) PositionCursor Int) :=
      panel.beats (.list inferInstance) 2 script (Watched.alone ⟨[1, 2]⟩).session
        ((w.revised (.shortCircuiting b)).withOutside [])
    let calls b := (run b).map fun b =>
      (Minute.consultations b.worldAfter.outside).map fun c => c.calls.map (·.1)
    calls true = [[], [[0, 2], [0, 1]], [[0, 2], [0, 1], [0, 1]]] ∧
      calls false = [[], [[0, 2], [0, 1, 2]], [[0, 2], [0, 1, 2], [0, 1, 2]]] ∧
      panel.Impartial verdict ∧ List.Forall₂ Beat.Curtails (run true) (run false) := by
  intro verdict panel w script run calls
  have hp : panel.Impartial verdict := ⟨fun _ _ _ => rfl, fun _ _ _ _ _ => rfl⟩
  refine ⟨?_, ?_, hp, hp.beats_shortCircuit ..⟩
  all_goals decide +kernel +zetaReduce

end WatchedContainers
