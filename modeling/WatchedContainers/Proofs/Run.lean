import WatchedContainers.Proofs.Step

/-!
# Sound runs

A container that was put under watch gives a sound session (`Standard.sound_session`), and so does
every run from a sound session.

* `Watched.presides_withRoot`: the root of a watched container presides.
* `Standard.run_induction`: what every step from a sound session keeps is kept by every run.
* `Standard.Sound.turn`: every turn of a run is a step from a sound session.
-/

namespace WatchedContainers

variable {C κ α : Type}

/-! ### Watching a container -/

/-- **A watched container has a root that presides**, if the hooks of the root are a judge. -/
theorem Watched.presides_withRoot [Collection C α] {j : Judge α} {inner : C} {root : HandlerRef}
    {w w' : HeardWorld α} {c : Watched C} (hhooks : w.hooksOfRoot root = .policy ())
    (hlive : w.isLive root) (h : Watched.withRoot j.observers inner root w = (.ok c, w')) :
    c.inner = inner ∧ w'.Presides c.handler c.id ∧ w'.outside = w.outside := by
  have hlt := World.index_lt_of_isLive hlive
  cases hcaps : (Collection.capabilities C).isEmpty with
  | true => simp [withRoot, bind, World.bind, hcaps] at h
  | false =>
    cases hb : (w.freshId.2.handler root).binding with
    | some b => simp [withRoot, bind, World.bind, hcaps, Handler.isBound, hb] at h
    | none =>
      have hbind := World.bind_eq j w.freshId.2 w.freshId.1 hcaps hb
      simp only [withRoot, bind, hbind] at h
      obtain ⟨hc, rfl⟩ := Prod.mk.inj h
      obtain rfl := Except.ok.inj hc
      have hbound := World.handler_modifyHandler w.freshId.2 root root
        (fun x => { x with binding := some ⟨w.freshId.1, Collection.capabilities C⟩ }) hlt
      rw [if_pos rfl] at hbound
      refine ⟨rfl, ⟨?_, ?_, ?_⟩, rfl⟩
      · rw [World.hooksOfRoot, hbound]
        exact hhooks
      · rw [hbound]
        rfl
      · rw [World.isLive, hbound]
        exact hlive

namespace Standard

variable {k : Standard α C κ} {j : Judge α} {s : Session C κ α} {w : HeardWorld α}

/-- Watching a container in a world that has only a root gives the world with one root. -/
theorem withRoot_world (k : Standard α C κ) (j : Judge α) (inner : C) :
    (let _ := k.collection
     let (root, w) := ({ outside := [] } : HeardWorld α).newRoot (.policy ()) {}
     Watched.withRoot j.observers inner root w) = (.ok (.alone inner), k.world) := by
  cases k <;> rfl

theorem presides_world (k : Standard α C κ) (inner : C) :
    k.world.Presides (Watched.alone inner).handler (Watched.alone inner).id :=
  ⟨rfl, rfl, rfl⟩

theorem fits_nil (k : Standard α C κ) (c : C) : k.Fits c [] :=
  ⟨by simp, trivial, Nat.zero_le _, trivial⟩

theorem sound_session (k : Standard α C κ) {c : Watched C} (hc : w.Presides c.handler c.id) :
    k.Sound c.session w where
  served := hc.attached
  fits := k.fits_nil c.inner

/-! ### Runs -/

end Standard

/-- What was heard in a turn is what was added to what had been heard before. -/
theorem Turn.heard_eq {t : Turn C κ α} {calls : List (Heard α)}
    (h : t.worldAfter.outside = t.history ++ calls) : t.heard = calls := by
  rw [heard, h, List.drop_left]

namespace Course

variable (c : Course C κ α) (t : Turn C κ α)

theorem responses_after : (c.after t).responses = t.response :: c.responses := rfl

theorem heard_after : (c.after t).heard = t.heard ++ c.heard := rfl

theorem answers_after : (c.after t).answers = t.heard.filterMap Heard.answer? ++ c.answers := by
  rw [answers, heard_after, List.filterMap_append, answers]

theorem reports_after : (c.after t).reports = t.heard.filterMap Heard.told? ++ c.reports := by
  rw [reports, heard_after, List.filterMap_append, reports]

end Course

namespace Standard

variable [ObjectIdentity α] {k : Standard α C κ} {j : Judge α} {s s' : Session C κ α}
  {w w' : HeardWorld α}

theorem run_of_act {a : Action α} {r : Except Error (Response α)} (rest : List (Action α))
    (h : k.act j.observers a s w = some (r, s', w')) :
    k.run j (a :: rest) s w = (k.run j rest s' w').after ⟨a, s, w, r, s', w'⟩ := by
  rw [run, h]

theorem run_of_none {a : Action α} (rest : List (Action α))
    (h : k.act j.observers a s w = none) : k.run j (a :: rest) s w = k.run j rest s w := by
  rw [run, h]

theorem act_of_run {a : Action α} {r : Except Error (Response α)}
    (h : (k.run j [a] s w).responses = [r]) :
    k.act j.observers a s w = some (r, (k.run j [a] s w).session, (k.run j [a] s w).world) := by
  unfold run at h ⊢
  cases ha : k.act j.observers a s w with
  | none =>
    rw [ha] at h
    simp [run, Course.responses] at h
  | some x =>
    obtain ⟨r', s', w'⟩ := x
    rw [ha] at h
    obtain rfl : r' = r := by simpa [run, Course.responses, Course.after] using h
    rfl

/-- A turn that starts from a sound session, and what it leads to. -/
structure Plays (k : Standard α C κ) (j : Judge α) (t : Turn C κ α) : Prop where
  sound : k.Sound t.before t.worldBefore
  step : k.Step j t.before t.worldBefore t.action t.response t.after t.worldAfter

/-- What every turn of a kind keeps is kept by a run of such turns. -/
theorem run_induction {motive : Session C κ α → HeardWorld α → Prop} {good : Turn C κ α → Prop}
    (hstep : ∀ t, k.Plays j t → good t → motive t.before t.worldBefore →
      motive t.after t.worldAfter)
    (actions : List (Action α)) (hs : k.Sound s w)
    (hgood : ∀ t ∈ (k.run j actions s w).turns, good t) (h : motive s w) :
    motive (k.run j actions s w).session (k.run j actions s w).world := by
  induction actions generalizing s w with
  | nil => exact h
  | cons a rest ih =>
    rw [run] at hgood ⊢
    cases ha : k.act j.observers a s w with
    | none =>
      rw [ha] at hgood
      exact ih hs hgood h
    | some x =>
      obtain ⟨r, s', w'⟩ := x
      rw [ha] at hgood
      obtain ⟨hfirst, hrest⟩ := List.forall_mem_cons.1 hgood
      have hst := hs.step ha
      exact ih (hst.sound hs) hrest (hstep ⟨a, s, w, r, s', w'⟩ ⟨hs, hst⟩ hfirst h)

/-- **Sessions stay sound.** -/
theorem Sound.run (hs : k.Sound s w) (actions : List (Action α)) :
    k.Sound (k.run j actions s w).session (k.run j actions s w).world :=
  run_induction (fun _ ht _ _ => ht.step.sound ht.sound) actions hs
    (fun _ _ => trivial) hs

theorem Step.root_eq {a : Action α} {r : Except Error (Response α)}
    (h : k.Step j s w a r s' w') :
    s'.root.handler = s.root.handler ∧ s'.root.id = s.root.id := by
  cases h <;> exact ⟨rfl, rfl⟩

/-- What was heard before a step is not forgotten. -/
theorem Step.outside_eq {a : Action α} {r : Except Error (Response α)}
    (h : k.Step j s w a r s' w') : ∃ calls, w'.outside = w.outside ++ calls := by
  cases h with
  | failed | answered | moved | notOpened | closed => exact ⟨[], (List.append_nil _).symm⟩
  | refused | accepted => exact ⟨_, rfl⟩
  | opened o f w' hf => exact ⟨[], hf.outside.trans (List.append_nil _).symm⟩

/-- The root stays the one that was put under watch. -/
theorem Sound.root_run (hs : k.Sound s w) (actions : List (Action α)) :
    (k.run j actions s w).session.root.handler = s.root.handler ∧
      (k.run j actions s w).session.root.id = s.root.id :=
  run_induction
    (motive := fun t _ => t.root.handler = s.root.handler ∧ t.root.id = s.root.id)
    (fun _ ht _ h => ⟨ht.step.root_eq.1.trans h.1, ht.step.root_eq.2.trans h.2⟩) actions hs
    (fun _ _ => trivial) ⟨rfl, rfl⟩

/-- **Every turn of a run is a step**, and starts from a sound session. -/
theorem Sound.turn (hs : k.Sound s w) {actions : List (Action α)} {t : Turn C κ α}
    (ht : t ∈ (k.run j actions s w).turns) : k.Plays j t := by
  induction actions generalizing s w with
  | nil => simp [Standard.run] at ht
  | cons a rest ih =>
    rw [Standard.run] at ht
    cases ha : k.act j.observers a s w with
    | none =>
      rw [ha] at ht
      exact ih hs ht
    | some x =>
      obtain ⟨r, s', w'⟩ := x
      rw [ha] at ht
      have hst := hs.step ha
      rcases List.mem_cons.1 ht with rfl | ht
      · exact ⟨hs, hst⟩
      · exact ih (hst.sound hs) ht

end Standard

end WatchedContainers
