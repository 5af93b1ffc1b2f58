import WatchedContainers.Proofs.Enlistment
import WatchedContainers.Proofs.Reentrance

/-!
# What a guest hears

* `Consulted`: who is asked about an event.
* `Panel.Quiet.proceeds_ask`, `Panel.Quiet.proceeds_tell`: the minutes of one event, and whether the
  guest is asked about it or told of it.
* `Panel.Quiet.take`: what is heard of one thing that happens.
* `Panel.Quiet.hears`: **a guest hears what its mask selects**, in every beat of a run.
-/

namespace WatchedContainers

variable {ρ σ C κ α : Type} [DecidableEq ρ]

/-! ### Consultations -/

/-- The calls of a consultation of `ls`: one after the other, and with the short circuit none after
the first no. -/
inductive Consulted : Bool → List ρ → List (ρ × Bool) → Prop
  | nil (shortCircuit : Bool) : Consulted shortCircuit [] []
  | accepted {shortCircuit : Bool} {l : ρ} {ls : List ρ} {calls : List (ρ × Bool)}
      (h : Consulted shortCircuit ls calls) : Consulted shortCircuit (l :: ls) ((l, true) :: calls)
  | stopped {l : ρ} {ls : List ρ} : Consulted true (l :: ls) [(l, false)]
  | refused {l : ρ} {ls : List ρ} {calls : List (ρ × Bool)} (h : Consulted false ls calls) :
      Consulted false (l :: ls) ((l, false) :: calls)

namespace Consulted

variable {shortCircuit : Bool} {guest : ρ} {ls ahead behind : List ρ} {calls : List (ρ × Bool)}

theorem of_not_mem (h : Consulted shortCircuit ls calls) (hguest : guest ∉ ls) :
    (calls.filter fun call => call.1 = guest) = [] := by
  induction h with
  | nil => rfl
  | accepted h ih | refused h ih =>
    obtain ⟨hne, hrest⟩ := not_or.1 (fun hmem => hguest (List.mem_cons.2 hmem))
    simp [Ne.symm hne, ih hrest]
  | stopped =>
    obtain ⟨hne, -⟩ := not_or.1 (fun hmem => hguest (List.mem_cons.2 hmem))
    simp [Ne.symm hne]

/-- Whoever comes once is asked once, unless the consultation ended with one who comes before. -/
theorem of_mem (h : Consulted shortCircuit (ahead ++ guest :: behind) calls)
    (hahead : guest ∉ ahead) (hbehind : guest ∉ behind) :
    ((calls.filter fun call => call.1 = guest).map fun call => call.1) =
      if shortCircuit && (calls.take ahead.length).any fun call => !call.2 then []
      else [guest] := by
  induction ahead generalizing calls with
  | nil =>
    cases h with
    | accepted h | refused h => simp [h.of_not_mem hbehind]
    | stopped => simp
  | cons l rest ih =>
    obtain ⟨hne, hrest⟩ := not_or.1 (fun hmem => hahead (List.mem_cons.2 hmem))
    cases h with
    | accepted h | refused h =>
      rw [List.filter_cons_of_neg (by simp [Ne.symm hne]), ih h hrest]
      rfl
    | stopped => simp [Ne.symm hne]

end Consulted

/-! ### Readings of minutes -/

namespace Minute

variable {guest : ρ} {e : Event α} {rest : List (Minute ρ α)}

theorem eventsTold_ofMessages (ls : List ρ) :
    eventsTold guest (ofMessages e ls) = (ls.filter (· = guest)).map fun _ => e := by
  induction ls with
  | nil => rfl
  | cons l ls ih =>
    by_cases hl : l = guest <;> simpa [eventsTold, ofMessages, hl] using ih

theorem eventsAsked_ofCalls (cs : List (ρ × Bool)) :
    eventsAsked guest (ofCalls e cs) = (cs.filter fun call => call.1 = guest).map fun _ => e := by
  induction cs with
  | nil => rfl
  | cons call cs ih =>
    by_cases hl : call.1 = guest <;> simpa [eventsAsked, ofCalls, hl] using ih

theorem eventsTold_ofCalls (cs : List (ρ × Bool)) : eventsTold guest (ofCalls e cs) = [] := by
  induction cs with
  | nil => rfl
  | cons call cs ih => exact ih

theorem eventsAsked_ofMessages (ls : List ρ) : eventsAsked guest (ofMessages e ls) = [] := by
  induction ls with
  | nil => rfl
  | cons l ls ih => exact ih

omit [DecidableEq ρ] in
theorem raised_ofCalls (cs : List (ρ × Bool)) : (ofCalls e cs).filterMap raised? = [] := by
  induction cs with
  | nil => rfl
  | cons call cs ih => exact ih

omit [DecidableEq ρ] in
theorem raised_ofMessages (ls : List ρ) : (ofMessages e ls).filterMap raised? = [] := by
  induction ls with
  | nil => rfl
  | cons l ls ih => exact ih

omit [DecidableEq ρ] in
theorem calls_ofCalls (cs : List (ρ × Bool)) (hrest : calls rest = []) :
    calls (ofCalls e cs ++ rest) = cs := by
  induction cs with
  | nil => exact hrest
  | cons call cs ih => exact congrArg (call :: ·) ih

omit [DecidableEq ρ] in
theorem consultations_ofCalls (cs : List (ρ × Bool)) :
    consultations (ofCalls e cs ++ rest) = consultations rest := by
  induction cs with
  | nil => rfl
  | cons call cs ih => exact ih

omit [DecidableEq ρ] in
theorem consultations_ofMessages (ls : List ρ) : consultations (ofMessages e ls) = [] := by
  induction ls with
  | nil => rfl
  | cons l ls ih => exact ih

/-! An event about which some were asked, and what came after it. -/

theorem eventsTold_asked (cs : List (ρ × Bool)) :
    eventsTold guest (raised e :: ofCalls e cs ++ rest) = eventsTold guest rest := by
  have hnone : eventsTold guest (ofCalls e cs) = [] := eventsTold_ofCalls cs
  unfold eventsTold at hnone ⊢
  rw [List.cons_append, List.filterMap_cons_none rfl, List.filterMap_append, hnone, List.nil_append]

theorem eventsAsked_asked (cs : List (ρ × Bool)) :
    eventsAsked guest (raised e :: ofCalls e cs ++ rest) =
      ((cs.filter fun call => call.1 = guest).map fun _ => e) ++ eventsAsked guest rest := by
  have hcalls : eventsAsked guest (ofCalls e cs) =
      (cs.filter fun call => call.1 = guest).map fun _ => e := eventsAsked_ofCalls cs
  unfold eventsAsked at hcalls ⊢
  rw [List.cons_append, List.filterMap_cons_none rfl, List.filterMap_append, hcalls]

omit [DecidableEq ρ] in
theorem reports_asked (cs : List (ρ × Bool)) (hpre : e.isPre) :
    reports (raised e :: ofCalls e cs ++ rest) = reports rest := by
  have hraised : (raised e :: ofCalls e cs ++ rest).filterMap raised? =
      e :: rest.filterMap raised? := by
    change e :: (ofCalls e cs ++ rest).filterMap raised? = _
    rw [List.filterMap_append, raised_ofCalls, List.nil_append]
  rw [reports, hraised, List.filter_cons_of_neg (by simp [hpre]), reports]

omit [DecidableEq ρ] in
theorem consultations_asked (cs : List (ρ × Bool)) (hpre : e.isPre) (hrest : calls rest = []) :
    consultations (raised e :: ofCalls e cs ++ rest) = ⟨e, cs⟩ :: consultations rest := by
  rw [List.cons_append, consultations, if_pos hpre, calls_ofCalls cs hrest, consultations_ofCalls]

end Minute

/-! ### Registrations -/

namespace Registration

variable {guest : ρ} {mask : Mask} {rs : List (Registration ρ)}

theorem filter_hearing (k : Kind) :
    ((hearing k rs).filter (· = guest)) =
      hearing k (rs.filter fun r => r.listener = guest) := by
  simp only [hearing, List.filter_map, List.filter_filter, Function.comp_def, Bool.and_comm]

omit [DecidableEq ρ] in
theorem not_mem_hearing (k : Kind) (hrs : ∀ r ∈ rs, r.listener ≠ guest) : guest ∉ hearing k rs := by
  intro hmem
  obtain ⟨r, hr, heq⟩ := List.mem_map.1 hmem
  exact hrs r (List.mem_filter.1 hr).1 heq

/-- Whoever is registered once stands behind those who were registered before. -/
theorem exists_behind (hrs : (rs.filter fun r => r.listener = guest) = [⟨guest, mask⟩]) :
    ∃ behind, rs = (rs.takeWhile fun r => r.listener ≠ guest) ++ ⟨guest, mask⟩ :: behind ∧
      ∀ r ∈ behind, r.listener ≠ guest := by
  induction rs with
  | nil => simp at hrs
  | cons r rest ih =>
    by_cases hr : r.listener = guest
    · rw [List.filter_cons_of_pos (by simpa using hr)] at hrs
      obtain ⟨rfl, hrest⟩ := List.cons.inj hrs
      refine ⟨rest, by simp, fun r hmem heq => ?_⟩
      exact List.filter_eq_nil_iff.1 hrest r hmem (by simpa using heq)
    · rw [List.filter_cons_of_neg (by simpa using hr)] at hrs
      obtain ⟨behind, heq, hbehind⟩ := ih hrs
      refine ⟨behind, ?_, hbehind⟩
      rw [List.takeWhile_cons_of_pos (by simpa using hr), List.cons_append, ← heq]

end Registration

namespace ManagedHooks

variable {guest : ρ} {p : Phase} {mask : Mask} {s : ManagedHooks ρ}
  (hs : ∀ q, ((s.registered q).filter fun r => r.listener = guest) =
    if q = p then [⟨guest, mask⟩] else [])

include hs

/-- Where the guest is registered it is asked, unless it has no part in the event or somebody who
comes before it ended the consultation. -/
theorem asked_guest {e : Event α} {calls : List (ρ × Bool)}
    (hcalls : Consulted s.config.shortCircuit (Registration.hearing e.kind s.pre) calls) :
    (calls.filter fun call => call.1 = guest).map (fun _ => e) =
      if p = .pre ∧ mask.covers e.kind ∧ s.vetoedBefore guest ⟨e, calls⟩ = false then [e]
      else [] := by
  have hpre : (s.pre.filter fun r => r.listener = guest) =
      if Phase.pre = p then [⟨guest, mask⟩] else [] := hs .pre
  cases p with
  | post =>
    have hnone : ∀ r ∈ s.pre, r.listener ≠ guest := by
      intro r hr heq
      exact List.filter_eq_nil_iff.1 hpre r hr (by simpa using heq)
    rw [hcalls.of_not_mem (Registration.not_mem_hearing e.kind hnone)]
    simp
  | pre =>
    obtain ⟨behind, hsplit, hbehind⟩ := Registration.exists_behind hpre
    have hahead : ∀ r ∈ s.pre.takeWhile fun r => r.listener ≠ guest, r.listener ≠ guest :=
      fun r hr => by simpa using List.all_eq_true.1 List.all_takeWhile r hr
    have hbefore := Registration.not_mem_hearing e.kind hahead
    have hafter := Registration.not_mem_hearing e.kind hbehind
    rw [hsplit] at hcalls
    by_cases hcovers : mask.covers e.kind
    · have hheard : Registration.hearing e.kind
          ((s.pre.takeWhile fun r => r.listener ≠ guest) ++ ⟨guest, mask⟩ :: behind) =
          Registration.hearing e.kind (s.pre.takeWhile fun r => r.listener ≠ guest) ++
            guest :: Registration.hearing e.kind behind := by
        simp [Registration.hearing, hcovers]
      rw [hheard] at hcalls
      have hcalled : (calls.filter fun call => call.1 = guest).map (fun call => call.1) =
          if s.vetoedBefore guest ⟨e, calls⟩ then [] else [guest] := hcalls.of_mem hbefore hafter
      have hasked := congrArg (List.map fun _ => e) hcalled
      rw [List.map_map, Function.comp_def] at hasked
      rw [hasked]
      cases s.vetoedBefore guest ⟨e, calls⟩ <;> simp [hcovers]
    · have hheard : guest ∉ Registration.hearing e.kind
          ((s.pre.takeWhile fun r => r.listener ≠ guest) ++ ⟨guest, mask⟩ :: behind) := by
        simp only [Registration.hearing, List.filter_append, List.map_append, List.mem_append]
        rw [List.filter_cons_of_neg (by simpa using hcovers)]
        exact fun h => h.elim hbefore hafter
      rw [hcalls.of_not_mem hheard]
      simp [hcovers]

theorem told_guest (k : Kind) :
    (Registration.hearing k s.post).filter (· = guest) =
      if p = .post ∧ mask.covers k then [guest] else [] := by
  have hpost : (s.post.filter fun r => r.listener = guest) =
      if Phase.post = p then [⟨guest, mask⟩] else [] := hs .post
  rw [Registration.filter_hearing, hpost]
  by_cases hp : Phase.post = p
  · by_cases hcovers : mask.covers k <;> simp [Registration.hearing, ← hp, hcovers]
  · simp [Registration.hearing, hp, Ne.symm hp]

end ManagedHooks

/-! ### Calls of listeners -/

namespace Panel.Quiet

variable [ObjectIdentity α] {panel : Panel ρ α} {guest : ρ} (hq : panel.Quiet guest)
  (depth : Nat) (w : MinutedWorld ρ α) (e : Event α)

include hq

theorem proceeds_decide (l : ρ) :
    World.Proceeds guest (Minute.ofCalls e [(l, ((panel.observers (depth + 1)).decide l e w).1)]) w
      ((panel.observers (depth + 1)).decide l e w).2 :=
  ((World.Proceeds.minute w (.asked l e)).trans
    ((w.minute (.asked l e)).proceeds_follow (hq.asked w.outside l e))).trans (.minute _ _)

theorem proceeds_notify (l : ρ) :
    World.Proceeds guest [.told l e] w ((panel.observers (depth + 1)).notify l e w) :=
  (World.Proceeds.minute w (.told l e)).trans
    ((w.minute (.told l e)).proceeds_follow (hq.told w.outside l e))

theorem proceeds_inform (ls : List ρ) :
    World.Proceeds guest (Minute.ofMessages e ls) w
      (inform (panel.observers (depth + 1)) e ls w) := by
  induction ls generalizing w with
  | nil => exact .refl w
  | cons l rest ih => exact (hq.proceeds_notify depth w e l).trans (ih _)

theorem proceeds_consult (shortCircuit : Bool) (ls : List ρ) :
    ∃ calls, Consulted shortCircuit ls calls ∧ World.Proceeds guest (Minute.ofCalls e calls) w
      (consult (panel.observers (depth + 1)) shortCircuit e ls w).2 := by
  induction ls generalizing w with
  | nil => exact ⟨[], .nil _, .refl w⟩
  | cons l rest ih =>
    have hfirst := hq.proceeds_decide depth w e l
    unfold consult
    generalize (panel.observers (depth + 1)).decide l e w = x at hfirst
    obtain ⟨b, w'⟩ := x
    cases b with
    | true =>
      obtain ⟨calls, hcalls, hrest⟩ := ih w'
      exact ⟨_, .accepted hcalls, hfirst.trans hrest⟩
    | false =>
      cases shortCircuit with
      | true => exact ⟨_, .stopped, hfirst⟩
      | false =>
        obtain ⟨calls, hcalls, hrest⟩ := ih w'
        exact ⟨_, .refused hcalls, hfirst.trans hrest⟩

/-! ### Calls of hooks -/

theorem proceeds_decide_of_omits {hooks : Hooks ρ} (hhooks : hooks.Omits guest) :
    ∃ calls, World.Proceeds guest (Minute.ofCalls e calls) w
        (hooks.decide (panel.observers (depth + 1)) e w).2 ∧
      (calls.filter fun call => call.1 = guest) = [] := by
  cases hooks with
  | acceptAll => exact ⟨[], .refl w, rfl⟩
  | policy party =>
    have hne : party ≠ guest := hhooks
    exact ⟨_, hq.proceeds_decide depth w e party, by simp [hne]⟩
  | managed s =>
    obtain ⟨calls, hcalls, hw⟩ := hq.proceeds_consult depth w e s.config.shortCircuit
      (Registration.hearing e.kind s.pre)
    exact ⟨calls, hw, hcalls.of_not_mem (Registration.not_mem_hearing e.kind (hhooks .pre))⟩

theorem proceeds_notify_of_omits {hooks : Hooks ρ} (hhooks : hooks.Omits guest) :
    ∃ ls, World.Proceeds guest (Minute.ofMessages e ls) w
        (hooks.notify (panel.observers (depth + 1)) e w) ∧ ls.filter (· = guest) = [] := by
  cases hooks with
  | acceptAll => exact ⟨[], .refl w, rfl⟩
  | policy party =>
    have hne : party ≠ guest := hhooks
    exact ⟨[party], hq.proceeds_notify depth w e party, by simp [hne]⟩
  | managed s =>
    refine ⟨_, hq.proceeds_inform depth w e _, ?_⟩
    have hmem := Registration.not_mem_hearing e.kind (hhooks .post)
    exact List.filter_eq_nil_iff.2 fun l hl heq => hmem (of_decide_eq_true heq ▸ hl)

variable {w} {ref : HooksRef} {p : Phase} {mask : Mask} (hw : w.Enlists guest ref p mask)
  {root : HandlerRef}

include hw

/-- A question to the hooks, and whether the guest is asked. -/
theorem proceeds_ask (hlt : root.index < w.handlers.size) :
    ∃ s calls, w.hooksAt ref = .managed s ∧
      World.Proceeds guest (.raised e :: Minute.ofCalls e calls) w
        (w.ask (panel.observers (depth + 1)) root e).2 ∧
      (calls.filter fun call => call.1 = guest).map (fun _ => e) =
        if p = .pre ∧ (w.handler root).role = .root ref ∧ mask.covers e.kind ∧
          s.vetoedBefore guest ⟨e, calls⟩ = false then [e] else [] := by
  obtain ⟨s₀, hs₀⟩ := hw.managed
  let w₀ := w.poised (panel.observers (depth + 1)) root e
  have hpoised : World.Proceeds guest [.raised e] w w₀ := by
    have hremember : World.Proceeds guest [] w
        (w.modifyHandler root fun x => { x with preSize := e.preSize }) :=
      .of_modifyHandler w root fun _ => rfl
    rw [show w₀ = _ from World.poised_observers panel (depth + 1) root e w]
    exact hremember.trans (.minute _ _)
  have hask : (w.ask (panel.observers (depth + 1)) root e).2 =
      ((w₀.hooksOfRoot root).decide (panel.observers (depth + 1)) e w₀).2 := by
    unfold World.ask
    split
    next heq => exact (congrArg Prod.snd heq).symm
    next w' heq =>
      rw [World.emit_of_ne w' panel (depth + 1) (by simp)]
      exact (congrArg Prod.snd heq).symm
  have hrole := hpoised.role root hlt
  rw [hask]
  rcases (hpoised.enlists ref p mask hw).hooksOfRoot root with
    ⟨s, hroot, hhooks, hs, hguest⟩ | ⟨hroot, homits⟩
  · rw [hhooks]
    obtain ⟨calls, hcalls, hproceeds⟩ := hq.proceeds_consult depth w₀ e
      s.config.shortCircuit (Registration.hearing e.kind s.pre)
    refine ⟨s, calls, hs, hpoised.trans hproceeds, ?_⟩
    rw [hrole] at hroot
    rw [ManagedHooks.asked_guest hguest hcalls]
    simp only [hroot, true_and]
  · obtain ⟨calls, hproceeds, hcalls⟩ := hq.proceeds_decide_of_omits depth w₀ e homits
    refine ⟨s₀, calls, hs₀, hpoised.trans hproceeds, ?_⟩
    rw [hrole] at hroot
    rw [hcalls, if_neg fun h => hroot h.2.1]
    rfl

/-- A message to the hooks, and whether the guest is told. -/
theorem proceeds_tell (root : HandlerRef) : ∃ ls,
    World.Proceeds guest (.raised e :: Minute.ofMessages e ls) w
      (w.tell (panel.observers (depth + 1)) root e) ∧
    ls.filter (· = guest) =
      if p = .post ∧ (w.handler root).role = .root ref ∧ mask.covers e.kind then [guest]
      else [] := by
  have hraised : World.Proceeds guest [.raised e] w (w.minute (.raised e)) := .minute w (.raised e)
  rw [World.tell, World.emit_observers]
  rcases (hraised.enlists ref p mask hw).hooksOfRoot root with
    ⟨s, hroot, hhooks, -, hguest⟩ | ⟨hroot, homits⟩
  · have hinform := hq.proceeds_inform depth (w.minute (.raised e)) e
      (Registration.hearing e.kind s.post)
    have hhooks' : World.hooksOfRoot
        { w with outside := w.outside ++ Minute.ofTrace (.dispatching e) } root = .managed s :=
      hhooks
    refine ⟨Registration.hearing e.kind s.post, ?_, ?_⟩
    · simp only [hhooks']
      exact hraised.trans hinform
    · have hrole : (w.handler root).role = .root ref := hroot
      rw [ManagedHooks.told_guest hguest]
      simp only [hrole, true_and]
  · obtain ⟨ls, hproceeds, hls⟩ := hq.proceeds_notify_of_omits depth
      (w.minute (.raised e)) e homits
    exact ⟨ls, hraised.trans hproceeds, by rw [hls, if_neg fun h => hroot h.2.1]⟩

end Panel.Quiet

/-! ### What is heard of one thing that happens -/

namespace World

/-- The minutes tell of what was raised after modifications, at most, and of the guest that was told
of it. -/
structure Spread (w : MinutedWorld ρ α) (guest : ρ) (ref : HooksRef) (p : Phase) (mask : Mask)
    (news : List (Minute ρ α)) : Prop where
  told : Minute.eventsTold guest news = if p = .post then
    (Minute.reports news).filter fun e => w.raisedAt ref e && mask.covers e.kind else []
  asked : Minute.eventsAsked guest news = []
  consultations : Minute.consultations news = []
  calls : Minute.calls news = []

variable {w w' w'' : MinutedWorld ρ α} {guest : ρ} {ref : HooksRef} {p : Phase} {mask : Mask}
  {news : List (Minute ρ α)} {e : Event α}

theorem Spread.nil : w.Spread guest ref p mask [] := ⟨by cases p <;> rfl, rfl, rfl, rfl⟩

theorem Spread.message {ls : List ρ} (hpre : e.isPre = false)
    (hls : ls.filter (· = guest) =
      if p = .post ∧ w.raisedAt ref e ∧ mask.covers e.kind then [guest] else []) :
    w.Spread guest ref p mask (.raised e :: Minute.ofMessages e ls) where
  told := by
    have htold : Minute.eventsTold guest (.raised e :: Minute.ofMessages e ls) =
        (ls.filter (· = guest)).map fun _ => e := Minute.eventsTold_ofMessages ls
    have hraised : (Minute.raised e :: Minute.ofMessages e ls).filterMap Minute.raised? = [e] :=
      congrArg (e :: ·) (Minute.raised_ofMessages ls)
    have hreports : Minute.reports (.raised e :: Minute.ofMessages e ls) = [e] := by
      rw [Minute.reports, hraised]
      simp [hpre]
    rw [htold, hls, hreports]
    cases p with
    | pre => rfl
    | post =>
      by_cases hheard : w.raisedAt ref e ∧ mask.covers e.kind
      · simp [hheard.1, hheard.2]
      · simp only [true_and, if_neg hheard, if_true, List.map_nil]
        rw [List.filter_cons_of_neg (by simpa using hheard)]
        rfl
  asked := Minute.eventsAsked_ofMessages ls
  consultations := by
    rw [Minute.consultations, if_neg (by simp [hpre]), Minute.consultations_ofMessages]
  calls := rfl

theorem Spread.informs (hw : w.Enlists guest ref p mask) (hproceeds : Proceeds guest news w w')
    (hspread : w'.Spread guest ref p mask news) :
    w.Informs guest ref p mask w' ∧ w'.Enlists guest ref p mask := by
  obtain ⟨s, hs⟩ := hw.managed
  refine ⟨⟨s, news, hs, hproceeds.outside, hspread.told, ?_⟩, hproceeds.enlists ref p mask hw⟩
  rw [hspread.asked, hspread.consultations]
  cases p <;> rfl

/-- An event before a modification is raised at a handler, and then others after it. -/
theorem Spread.informs_of_asked {s : ManagedHooks ρ} {calls : List (ρ × Bool)}
    (hw : w.Enlists guest ref p mask) (hs : w.hooksAt ref = .managed s) (hpre : e.isPre)
    (hlt : e.handler.index < w.handlers.size)
    (hasks : Proceeds guest (.raised e :: Minute.ofCalls e calls) w w')
    (hcalls : (calls.filter fun call => call.1 = guest).map (fun _ => e) =
      if p = .pre ∧ (w.handler e.handler).role = .root ref ∧ mask.covers e.kind ∧
        s.vetoedBefore guest ⟨e, calls⟩ = false then [e] else [])
    (hproceeds : Proceeds guest news w' w'') (hspread : w''.Spread guest ref p mask news) :
    w.Informs guest ref p mask w'' ∧ w''.Enlists guest ref p mask := by
  have htrans := hasks.trans hproceeds
  have hraised : w''.raisedAt ref e = decide ((w.handler e.handler).role = .root ref) := by
    rw [raisedAt, htrans.role _ hlt]
  refine ⟨⟨s, _, hs, htrans.outside, ?_, ?_⟩, htrans.enlists ref p mask hw⟩
  · rw [Minute.eventsTold_asked, Minute.reports_asked _ hpre, hspread.told]
  · rw [Minute.eventsAsked_asked, Minute.consultations_asked _ hpre hspread.calls, hspread.asked,
      hspread.consultations, hcalls, List.append_nil]
    cases p with
    | post => rfl
    | pre =>
      by_cases hheard : (w.handler e.handler).role = .root ref ∧ mask.covers e.kind ∧
          s.vetoedBefore guest ⟨e, calls⟩ = false
      · simp [hraised, hheard.1, hheard.2.1, hheard.2.2]
      · rw [if_neg fun h => hheard h.2, if_pos rfl, List.filter_cons_of_neg]
        · rfl
        · simpa [hraised, and_assoc] using hheard

end World

section Informed

variable [ObjectIdentity α] {panel : Panel ρ α} {guest : ρ} (hq : panel.Quiet guest)
  (depth : Nat) {w : MinutedWorld ρ α} {ref : HooksRef} {p : Phase} {mask : Mask}
  (hw : w.Enlists guest ref p mask)

include hq hw

/-- A conclusion is a message to some hooks, or none. -/
theorem Panel.Quiet.conclude (h : HandlerRef) (c : Completion α) (size : Nat) :
    ∃ news, World.Proceeds guest news w (w.conclude (panel.observers (depth + 1)) h c size).2 ∧
      (w.conclude (panel.observers (depth + 1)) h c size).2.Spread guest ref p mask news := by
  rcases w.conclude_cases (panel.observers (depth + 1)) h c size with
    heq | ⟨t, ht, heq⟩ | ⟨root, observed, offset, view, preSize, hbound, heq⟩
  · rw [heq]
    exact ⟨[], .refl w, .nil⟩
  · rw [heq, World.emit_of_ne _ _ _ ht]
    exact ⟨[], .refl w, .nil⟩
  · rw [heq]
    let e := Event.after observed root offset c view preSize size
    obtain ⟨ls, hproceeds, hls⟩ := hq.proceeds_tell depth e hw root
    have hraised : (w.tell (panel.observers (depth + 1)) root e).raisedAt ref e =
        decide ((w.handler root).role = .root ref) := by
      rw [World.raisedAt, ← hproceeds.role root (World.index_lt_of_isBound hbound)]
      rfl
    refine ⟨_, hproceeds, .message rfl ?_⟩
    rw [hls, hraised]
    simp only [decide_eq_true_eq]

/-- A proposal is a question to some hooks, or none; others may hear of something after it. -/
theorem Panel.Quiet.propose (h : HandlerRef) (m : Modification α) (size : Nat) :
    (∀ w' news, World.Proceeds guest news
          (w.propose (panel.observers (depth + 1)) h m size).2 w' →
        w'.Spread guest ref p mask news →
        w.Informs guest ref p mask w' ∧ w'.Enlists guest ref p mask) ∧
      (w.propose (panel.observers (depth + 1)) h m size).2.Enlists guest ref p mask := by
  rcases w.propose_cases (panel.observers (depth + 1)) h m size with
    heq | ⟨t, ht, heq⟩ | ⟨root, observed, m', view, hbound, heq⟩
  · rw [heq]
    exact ⟨fun w' news hproceeds hspread => hspread.informs hw hproceeds, hw⟩
  · rw [heq, World.emit_of_ne _ _ _ ht]
    exact ⟨fun w' news hproceeds hspread => hspread.informs hw hproceeds, hw⟩
  · rw [heq]
    have hlt := World.index_lt_of_isBound hbound
    obtain ⟨s, calls, hs, hasks, hcalls⟩ := hq.proceeds_ask depth
      (.before observed root m' view size) hw hlt
    exact ⟨fun w' news hproceeds hspread =>
      hspread.informs_of_asked hw hs rfl hlt hasks hcalls hproceeds, hasks.enlists ref p mask hw⟩

/-- Whoever performs an operation proposes, and concludes or does not. -/
theorem Panel.Quiet.perform {S β : Type} [Noting S] (h : HandlerRef) (operation : Operation S α β)
    (x : S) :
    let w' := (perform (panel.observers (depth + 1)) h operation x w).2.2
    w.Informs guest ref p mask w' ∧ w'.Enlists guest ref p mask := by
  have hcollect : ∀ (calls : List Call) (w : MinutedWorld ρ α),
      w.collect (panel.observers (depth + 1)) calls = w := by
    intro calls w
    induction calls with
    | nil => rfl
    | cons c rest ih => exact ih
  unfold WatchedContainers.perform
  cases operation x with
  | error e => exact World.Spread.nil.informs hw (.refl w)
  | ok plan =>
    obtain ⟨hinforms, hw'⟩ := hq.propose depth hw h plan.proposal plan.size
    simp only [hcollect]
    cases hpropose : w.propose (panel.observers (depth + 1)) h plan.proposal plan.size with
    | mk r w' =>
      simp only [hpropose] at hinforms hw'
      cases r with
      | error e => exact hinforms w' [] (.refl w') .nil
      | ok answer =>
        cases answer with
        | false => exact hinforms w' [] (.refl w') .nil
        | true =>
          cases plan.commit.report with
          | none => exact hinforms w' [] (.refl w') .nil
          | some c =>
            obtain ⟨news, hproceeds, hspread⟩ := hq.conclude depth hw' h c.1 c.2
            have hall := hinforms _ news hproceeds hspread
            cases hresult : w'.conclude (panel.observers (depth + 1)) h c.1 c.2 with
            | mk r w'' =>
              rw [hresult] at hall
              cases r with
              | error e => simpa only [hresult] using hall
              | ok => simpa only [hresult] using hall

theorem Panel.Quiet.grant {x : Request ρ α} (hx : x.listener? ≠ some guest) :
    let w' := (w.grant (panel.observers (depth + 1)) x).2
    w.Informs guest ref p mask w' ∧ w'.Enlists guest ref p mask := by
  intro w'
  have hquiet : x.raises = false →
      w.Informs guest ref p mask w' ∧ w'.Enlists guest ref p mask := fun hraises =>
    World.Spread.nil.informs hw (w.proceeds_grant hraises hx)
  cases x with
  | propose h m size => exact (hq.propose depth hw h m size).1 _ [] (.refl _) .nil
  | conclude h c size =>
    obtain ⟨news, hproceeds, hspread⟩ := hq.conclude depth hw h c size
    exact hspread.informs hw hproceeds
  | register | subscribe | unregister | list | rangeView | keyedView | bind => exact hquiet rfl

end Informed

/-! ### Runs -/

namespace Panel.Quiet

variable [ObjectIdentity α] {panel : Panel ρ α} {guest : ρ} (hq : panel.Quiet guest)
  (depth : Nat) {w : MinutedWorld ρ α} {ref : HooksRef} {p : Phase} {mask : Mask}
  (hw : w.Enlists guest ref p mask) [Collection C α] [Traversal C κ α] [BEq α] [Noting C]
  (fam : Family C κ α)

include hq hw

theorem act {a : Action α} {s : Session C κ α}
    {x : Except Error (Response α) × Session C κ α × MinutedWorld ρ α}
    (hx : s.act (panel.observers (depth + 1)) fam a w = some x) :
    w.Informs guest ref p mask x.2.2 ∧ x.2.2.Enlists guest ref p mask := by
  have hunheard : ∀ w', World.Proceeds guest [] w w' →
      w.Informs guest ref p mask w' ∧ w'.Enlists guest ref p mask := fun w' hw' =>
    World.Spread.nil.informs hw hw'
  unfold Session.act at hx
  cases a with
  | command c =>
    obtain ⟨op, -, rfl⟩ := Option.map_eq_some_iff.1 hx
    exact hq.perform depth hw s.handler op s
  | query q =>
    obtain ⟨r, -, rfl⟩ := Option.map_eq_some_iff.1 hx
    exact hunheard w (.refl w)
  | move m =>
    obtain ⟨y, -, rfl⟩ := Option.map_eq_some_iff.1 hx
    exact hunheard w (.refl w)
  | openFrame o =>
    obtain ⟨⟨r, w'⟩, hopen, rfl⟩ := Option.map_eq_some_iff.1 hx
    have hproceeds : World.Proceeds guest [] w w' := Session.proceeds_open? w hopen
    cases r with
    | ok f => exact hunheard w' hproceeds
    | error e => exact hunheard w' hproceeds
  | close =>
    cases hframes : s.frames with
    | nil => simp [hframes] at hx
    | cons f rest =>
      obtain rfl : (.ok .nothing, { s with frames := rest }, w) = x := by
        simpa [hframes] using hx
      exact hunheard w (.refl w)

theorem take {x : Happening ρ α} (hx : x.listener? ≠ some guest) {s : Session C κ α}
    {y : Except Error (Response α ⊕ Grant ρ) × Session C κ α × MinutedWorld ρ α}
    (hy : panel.take fam (depth + 1) x s w = some y) :
    w.Informs guest ref p mask y.2.2 ∧ y.2.2.Enlists guest ref p mask := by
  cases x with
  | action a =>
    obtain ⟨z, hact, rfl⟩ := Option.map_eq_some_iff.1 hy
    exact hq.act depth hw fam hact
  | request x =>
    have hgrant := hq.grant depth hw hx
    rw [Panel.take] at hy
    generalize w.grant (panel.observers (depth + 1)) x = z at hgrant hy
    obtain rfl := Option.some.inj hy
    exact hgrant

/-- **A guest hears what its mask selects**, in whatever happens while it is registered. -/
theorem hears {script : List (Happening ρ α)} (hscript : ∀ x ∈ script, x.listener? ≠ some guest)
    (s : Session C κ α) :
    ∀ b ∈ panel.beats fam (depth + 1) script s w, b.Hears guest ref p mask := by
  induction script generalizing s w with
  | nil => simp [Panel.beats]
  | cons x rest ih =>
    have hrest := fun y hy => hscript y (.tail _ hy)
    rw [Panel.beats]
    cases htake : panel.take fam (depth + 1) x s w with
    | none => exact ih hw hrest s
    | some y =>
      obtain ⟨r, s', w'⟩ := y
      obtain ⟨hinforms, hw'⟩ := hq.take depth hw fam (hscript x (.head _)) htake
      intro b hb
      rcases List.mem_cons.1 hb with rfl | hb
      · exact hinforms
      · exact ih hw' hrest s' b hb

end Panel.Quiet

end WatchedContainers
