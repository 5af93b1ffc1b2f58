import WatchedContainers.Proofs.Inquiry
import WatchedContainers.Proofs.Onward

/-!
# Resolution of listener values

* `World.Advances.issues`: **whatever a program does leads onward**, and an identity that it gives
  to a container or a view was not taken before.
* `Registry.resolves`: **how listener values are resolved**, at any time in any program.
-/

namespace WatchedContainers

variable {ρ σ ν φ α : Type}

section Programs

variable {obs : Observers ρ (σ × Shelf φ) α} (ho : obs.Onward)
  {make : φ → Factory ρ (σ × Shelf φ) ν} (hm : ∀ f, (make f).Onward) {w w' : ShelvedWorld ρ σ φ}

namespace World

include ho in
theorem shelf_shelve (element : String) (f : φ) :
    (w.shelve make obs element f).shelf = w.shelf.register f :=
  ho.trace ..

include ho in
theorem onward_shelve (element : String) (f : φ) : w.Onward (w.shelve make obs element f) :=
  ⟨Nat.le_refl _, [f], shelf_shelve ho element f⟩

include ho hm

/-- Whatever the factories do, a resolution leads onward. -/
theorem onward_resolution (container : ContainerId) (listener : Option (Listener ρ ν))
    (config : Config) (u : ShelvedWorld ρ σ φ) :
    u.Onward ((w.registry make).resolution obs container listener config u).after := by
  obtain ⟨-, hfollows⟩ :=
    Registry.follows_resolution container config obs (w.registry make) listener u
  refine hfollows.induction .refl .trans (fun q hq => ?_) (fun w _ _ => .of_eq (Nat.le_refl _) rfl)
    ho.emit
  -- whoever was asked is one of the factories that `make` makes
  obtain ⟨f, hf, hcreate⟩ := hfollows.genuine q hq
  obtain ⟨name, -, rfl⟩ := List.mem_map.1 (List.mem_of_getElem? hf)
  have honward := hm name q.container q.listener q.config q.before
  rw [hcreate] at honward
  exact honward

theorem onward_resolve (container : ContainerId) (listener : Option (Listener ρ ν))
    (config : Config) (u : ShelvedWorld ρ σ φ) :
    u.Onward ((w.registry make).resolve obs container listener config u).2 := by
  rw [(Registry.follows_resolution container config obs (w.registry make) listener u).1]
  exact onward_resolution ho hm container listener config u

theorem issues_withListener {C : Type} [Collection C α] (inner : C)
    (listener : Option (Listener ρ ν)) (config : Config) :
    let x := Watched.withListener obs (w.registry make) inner listener config w
    Issues (x.1.toOption.map (·.id)) w x.2 := by
  have hresolve := onward_resolve ho hm (w := w) w.freshId.1 listener config w.freshId.2
  unfold Watched.withListener
  simp only
  cases hr : (w.registry make).resolve obs w.freshId.1 listener config w.freshId.2 with
  | mk r w' =>
    rw [hr] at hresolve
    cases r with
    | error e => exact (w.onward_freshId.trans hresolve).issues
    | ok handler => exact ho.bind_watched handler inner hresolve

/-- **Whatever a program does leads onward**, and an identity that it gives to a container or a view
was not taken before. -/
theorem Advances.issues [ObjectIdentity α] {given : Option ContainerId}
    (h : w.Advances make obs given w') : Issues given w w' := by
  cases h with
  | shelve _ element f => exact (onward_shelve ho element f).issues
  | resolve _ container listener config =>
    exact (onward_resolve ho hm container listener config w).issues
  | withListener inner listener config r _ _ h =>
    have hissues := issues_withListener ho hm (w := w) inner listener config
    rw [h] at hissues
    exact hissues
  | withRoot inner handler r _ _ h =>
    have hissues := ho.withRoot w handler inner
    rw [h] at hissues
    exact hissues
  | openFrame fam o s f _ _ h => exact ho.openFrame h
  | act fam a s s' r _ _ h => exact (ho.act h).issues
  | elsewhere _ _ h => exact h.issues

end World

include ho in
/-- A resolution makes nothing of the registry but what the factories make of it. -/
theorem Resolution.Follows.shelf {r : Registry ρ (σ × Shelf φ) ν} {container : ContainerId}
    {listener : Option (Listener ρ ν)} {config : Config} {t : Resolution ρ (σ × Shelf φ) ν}
    (h : t.Follows obs r container listener config w)
    (hqs : ∀ q ∈ t.inquiries, q.after.shelf = q.before.shelf) : t.after.shelf = w.shelf :=
  h.induction (R := fun w w' => w'.shelf = w.shelf) (fun _ => rfl) (fun h h' => h'.trans h) hqs
    (fun _ _ _ => rfl) fun _ _ => ho.trace ..

/-! ### The factories every registry starts with -/

include ho in
theorem Observers.Onward.enrol (w : ShelvedWorld ρ σ φ) (ref : HooksRef) (p : Phase)
    (l : Option ρ) (mask : Mask) : w.Onward (w.enrol obs ref p l mask) := by
  unfold World.enrol
  split
  · exact .of_eq (Nat.le_refl _) (ho.trace ..)
  · exact .refl w

include ho hm

end Programs

end WatchedContainers
