import WatchedContainers.Proofs.Run
import WatchedContainers.Watched.RecordedRun

/-!
# Recorded worlds

* `Standard.map_open?`: openings look at the handlers of a world only.
* `Standard.act_unrecorded`: **a record does not interfere** with what is done.
-/

namespace WatchedContainers

variable {ρ σ π τ C κ α : Type}

/-! ### Images of worlds -/

section Images

variable {obs : Observers ρ σ α} {obs' : Observers π τ α} {f : σ → τ}
  {g : Array (Hooks ρ) → Array (Hooks π)} (htrace : ∀ t x, f (obs.trace t x) = obs'.trace t (f x))
  (w : World ρ σ) (h : HandlerRef)

include htrace

namespace World

theorem map_emit (t : Trace α) : (w.map f g).emit obs' t = (w.emit obs t).map f g := by
  simp only [map, emit, htrace]

theorem map_bind (id : ContainerId) (caps : Capabilities) :
    (w.map f g).bind obs' h id caps =
      ((w.bind obs h id caps).1, (w.bind obs h id caps).2.map f g) := by
  have hh : (w.map f g).handler h = w.handler h := rfl
  unfold bind
  rw [hh]
  split
  · rfl
  · split
    · rfl
    · have hbound : ∀ f', (w.map f g).modifyHandler h f' = (w.modifyHandler h f').map f g :=
        fun _ => rfl
      simp only [hbound, map_emit htrace]

theorem map_makeRangeView (start stop : Nat) :
    (w.map f g).makeRangeView obs' h start stop =
      ((w.makeRangeView obs h start stop).1, (w.makeRangeView obs h start stop).2.map f g) := by
  have hh : (w.map f g).handler h = w.handler h := rfl
  unfold makeRangeView
  simp only [hh]
  split
  · rfl
  · split
    · rfl
    · cases depthBelow (w.handler h) with
      | error e => rfl
      | ok depth =>
        simp only [map_emit htrace]
        rfl

theorem map_makeKeyedView :
    (w.map f g).makeKeyedView obs' h =
      ((w.makeKeyedView obs h).1, (w.makeKeyedView obs h).2.map f g) := by
  have hh : (w.map f g).handler h = w.handler h := rfl
  unfold makeKeyedView
  simp only [hh]
  split
  · rfl
  · cases depthBelow (w.handler h) with
    | error e => rfl
    | ok depth =>
      simp only [map_emit htrace]
      rfl

end World

theorem SubList.map_openIn [Collection C α] [Positional C α] (x : Segment C) (start stop : Nat) :
    SubList.openIn obs' h x start stop (w.map f g) =
      ((SubList.openIn obs h x start stop w).1,
        (SubList.openIn obs h x start stop w).2.map f g) := by
  unfold SubList.openIn
  split
  · rfl
  · rw [World.map_makeRangeView htrace]
    cases w.makeRangeView obs h start stop with
    | mk r w' =>
      cases r with
      | error e => rfl
      | ok ref =>
        have hfresh : (w'.map f g).freshId = (w'.freshId.1, w'.freshId.2.map f g) := rfl
        simp only [hfresh, World.map_bind htrace]
        cases w'.freshId.2.bind obs ref w'.freshId.1 (Collection.capabilities C) with
        | mk b w'' => cases b <;> rfl

theorem SortedView.map_openIn [Collection C α] [Ord α] (x : SubRange C α) (b : Bounds α) :
    SortedView.openIn obs' h x b (w.map f g) =
      ((SortedView.openIn obs h x b w).1, (SortedView.openIn obs h x b w).2.map f g) := by
  unfold SortedView.openIn
  rw [World.map_makeKeyedView htrace]
  cases w.makeKeyedView obs h with
  | mk r w' =>
    cases r with
    | error e => rfl
    | ok ref =>
      have hfresh : (w'.map f g).freshId = (w'.freshId.1, w'.freshId.2.map f g) := rfl
      simp only [hfresh, World.map_bind htrace]
      cases w'.freshId.2.bind obs ref w'.freshId.1 (Collection.capabilities C) with
      | mk b w'' => cases b <;> rfl

theorem SortedView.map_openBetween [Collection C α] [Ord α] (x : SubRange C α) (start stop : α) :
    SortedView.openBetween obs' h x start stop (w.map f g) =
      ((SortedView.openBetween obs h x start stop w).1,
        (SortedView.openBetween obs h x start stop w).2.map f g) := by
  unfold SortedView.openBetween
  split
  · rfl
  · exact SortedView.map_openIn htrace ..

/-- **Openings look at handlers only**, and change nothing else. -/
theorem Standard.map_open? (k : Standard α C κ) (o : Opening α) (s : Session C κ α) :
    k.open? obs' o s (w.map f g) = (k.open? obs o s w).map fun x => (x.1, x.2.map f g) := by
  unfold Standard.open? Session.open?
  cases o with
  | subList start stop =>
    cases k with
    | sequence =>
      simp only [family, Option.map_map, Function.comp_def, SubList.map_openIn htrace]
    | queue | uniqueSet | sortedSet | bag => rfl
  | range bounds =>
    cases k with
    | sortedSet =>
      simp only [family, Option.map_map, Function.comp_def, SortedView.map_openIn htrace]
    | sequence | queue | uniqueSet | bag => rfl
  | subSet start stop =>
    cases k with
    | sortedSet =>
      simp only [family, Option.map_map, Function.comp_def, SortedView.map_openBetween htrace]
    | sequence | queue | uniqueSet | bag => rfl
  | iteration => simp only [Option.map_map, Function.comp_def]
  | listIterator =>
    cases k with
    | sequence => simp only [family, Option.map_map, Function.comp_def]
    | queue | uniqueSet | sortedSet | bag => rfl

end Images

/-! ### The record does not interfere -/

section Unrecorded

variable {obs : Observers ρ σ α} (w : RecordedWorld ρ σ α) {h root : HandlerRef}

namespace World

theorem unrecorded_consult (e : Event α) (shortCircuit : Bool) (parties : List ρ) :
    consult obs shortCircuit e parties w.unrecorded =
      ((consult obs.recording shortCircuit e parties w).1,
        (consult obs.recording shortCircuit e parties w).2.unrecorded) := by
  induction parties generalizing shortCircuit w with
  | nil => rfl
  | cons l rest ih =>
    have hdecide : obs.decide l e w.unrecorded =
      ((obs.recording.decide l e w).1, (obs.recording.decide l e w).2.unrecorded) := rfl
    unfold consult
    rw [hdecide]
    cases obs.recording.decide l e w with
    | mk b w' =>
      cases b with
      | true => exact ih w' shortCircuit
      | false =>
        cases shortCircuit with
        | true => rfl
        | false =>
          simp only [Bool.false_eq_true, if_false, ih]

theorem unrecorded_inform (e : Event α) (parties : List ρ) :
    inform obs e parties w.unrecorded = (inform obs.recording e parties w).unrecorded := by
  induction parties generalizing w with
  | nil => rfl
  | cons l rest ih => exact ih (obs.recording.notify l e w)

end World

theorem Hooks.unrecorded_decide (hooks : Hooks ρ) (e : Event α) :
    hooks.decide obs e w.unrecorded =
      ((hooks.decide obs.recording e w).1, (hooks.decide obs.recording e w).2.unrecorded) := by
  cases hooks with
  | acceptAll => rfl
  | policy party => rfl
  | managed s => exact w.unrecorded_consult ..

theorem Hooks.unrecorded_notify (hooks : Hooks ρ) (e : Event α) :
    hooks.notify obs e w.unrecorded = (hooks.notify obs.recording e w).unrecorded := by
  cases hooks with
  | acceptAll => rfl
  | policy party => rfl
  | managed s => exact w.unrecorded_inform ..

namespace World

theorem unrecorded_reachRoot (h : HandlerRef) :
    w.unrecorded.reachRoot obs h =
      ((w.reachRoot obs.recording h).1, (w.reachRoot obs.recording h).2.unrecorded) := by
  have hroot : w.unrecorded.root? h = w.root? h := rfl
  unfold reachRoot
  rw [hroot]
  cases w.root? h <;> rfl

theorem unrecorded_proposeAtRoot (m : Modification α) (view : Option Viewpoint) (size : Nat) :
    w.unrecorded.proposeAtRoot obs root m view size =
      ((w.proposeAtRoot obs.recording root m view size).1,
        (w.proposeAtRoot obs.recording root m view size).2.unrecorded) := by
  have hh : w.unrecorded.handler root = w.handler root := rfl
  unfold proposeAtRoot
  rw [hh]
  cases (w.handler root).binding with
  | none => rfl
  | some b =>
    simp only
    generalize hw : emit obs.recording _ _ = w'
    have hw' : emit obs (.dispatching (Event.before b.container root m view size))
        (w.unrecorded.modifyHandler root fun x => { x with preSize := size }) = w'.unrecorded := by
      rw [← hw]
      rfl
    have hhooks : w'.unrecorded.hooksOfRoot root = w'.hooksOfRoot root := rfl
    rw [hw', hhooks, Hooks.unrecorded_decide]
    cases (w'.hooksOfRoot root).decide obs.recording _ w' with
    | mk answer w'' => cases answer <;> rfl

theorem unrecorded_concludeAtRoot [ObjectIdentity α] (offset : Nat) (c : Completion α)
    (view : Option Viewpoint) (size : Nat) :
    w.unrecorded.concludeAtRoot obs root offset c view size =
      ((w.concludeAtRoot obs.recording root offset c view size).1,
        (w.concludeAtRoot obs.recording root offset c view size).2.unrecorded) := by
  have hh : w.unrecorded.handler root = w.handler root := rfl
  unfold concludeAtRoot
  rw [hh]
  cases (w.handler root).binding with
  | none => rfl
  | some b =>
    simp only
    generalize Event.after b.container root offset c view (w.handler root).preSize size = e
    exact congrArg (Prod.mk (Except.ok ()))
      (Hooks.unrecorded_notify (w.emit obs.recording (.dispatching e)) (w.hooksOfRoot root) e)

theorem unrecorded_propose (m : Modification α) (size : Nat) :
    w.unrecorded.propose obs h m size =
      ((w.propose obs.recording h m size).1, (w.propose obs.recording h m size).2.unrecorded) := by
  have hh : w.unrecorded.handler h = w.handler h := rfl
  unfold propose
  rw [hh]
  cases (w.handler h).binding with
  | none => rfl
  | some b =>
    simp only [unrecorded_reachRoot]
    cases w.reachRoot obs.recording h with
    | mk r w' =>
      cases r with
      | error e => rfl
      | ok root => exact w'.unrecorded_proposeAtRoot ..

theorem unrecorded_conclude [ObjectIdentity α] (c : Completion α) (size : Nat) :
    w.unrecorded.conclude obs h c size =
      ((w.conclude obs.recording h c size).1,
        (w.conclude obs.recording h c size).2.unrecorded) := by
  have hh : w.unrecorded.handler h = w.handler h := rfl
  unfold conclude
  rw [hh]
  cases c.absent? with
  | some kind => rfl
  | none =>
    cases (w.handler h).binding with
    | none => rfl
    | some b =>
      simp only [unrecorded_reachRoot]
      cases w.reachRoot obs.recording h with
      | mk r w' =>
        cases r with
        | error e => rfl
        | ok root => exact w'.unrecorded_concludeAtRoot ..

theorem unrecorded_collect (calls : List Call) :
    w.unrecorded.collect obs calls = (w.collect obs.recording calls).unrecorded := by
  have hfold : ∀ x : σ × List (Heard α),
      (calls.foldl (fun x c => obs.recording.note c x) x).1 =
        calls.foldl (fun x c => obs.note c x) x.1 := by
    induction calls with
    | nil => exact fun _ => rfl
    | cons c rest ih => exact fun x => ih _
  simp only [collect, unrecorded, map, hfold]

end World

theorem unrecorded_perform {S β : Type} [ObjectIdentity α] [Noting S]
    (operation : Operation S α β) (s : S) :
    perform obs h operation s w.unrecorded =
      ((perform obs.recording h operation s w).1, (perform obs.recording h operation s w).2.1,
        (perform obs.recording h operation s w).2.2.unrecorded) := by
  unfold perform
  cases operation s with
  | error e => rfl
  | ok plan =>
    simp only [World.unrecorded_propose]
    cases w.propose obs.recording h plan.proposal plan.size with
    | mk r w' =>
      cases r with
      | error e => rfl
      | ok answer =>
        cases answer with
        | false => rfl
        | true =>
          simp only [World.unrecorded_collect]
          cases plan.commit.report with
          | none => rfl
          | some x =>
            simp only [World.unrecorded_conclude]
            cases World.conclude obs.recording h x.1 x.2 _ with
            | mk r w'' => cases r <;> rfl

/-- **A record does not interfere**: the action does what it would do without. -/
theorem Standard.act_unrecorded [ObjectIdentity α] (k : Standard α C κ) (obs : Observers ρ σ α)
    (a : Action α) (s : Session C κ α) (w : RecordedWorld ρ σ α) :
    k.act obs a s w.unrecorded =
      (k.act obs.recording a s w).map fun (r, s', w') => (r, s', w'.unrecorded) := by
  let _ := k.noting
  cases a with
  | command command =>
    change (k.operation? command s).map (fun op => perform obs s.handler op s w.unrecorded) =
      ((k.operation? command s).map fun op => perform obs.recording s.handler op s w).map _
    rw [Option.map_map]
    exact congrArg (fun f => (k.operation? command s).map f)
      (funext fun op => unrecorded_perform w op s)
  | query q =>
    change (k.answer? q s).map _ = ((k.answer? q s).map _).map _
    rw [Option.map_map]
    rfl
  | move m =>
    change (k.move? m s).map _ = ((k.move? m s).map _).map _
    rw [Option.map_map]
    rfl
  | openFrame o =>
    have hopen : k.open? obs o s w.unrecorded =
        (k.open? obs.recording o s w).map fun x => (x.1, x.2.unrecorded) :=
      k.map_open? (fun _ _ => rfl) w o s
    change (k.open? obs o s w.unrecorded).map _ = ((k.open? obs.recording o s w).map _).map _
    rw [hopen, Option.map_map, Option.map_map]
    refine congrArg (fun f => (k.open? obs.recording o s w).map f) (funext fun x => ?_)
    obtain ⟨r, w'⟩ := x
    cases r <;> rfl
  | close =>
    obtain ⟨root, frames⟩ := s
    cases frames <;> rfl

end Unrecorded

end WatchedContainers
