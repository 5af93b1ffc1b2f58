import Mathlib.Data.List.Induction
import WatchedContainers.Watched.Inquiry

/-!
# Resolutions ask the latest factory first

* `Registry.ask_inquired`: **the questions that a registry asks**, by induction on its factories.
* `Registry.resolve_inquired`: the list of questions does not interfere with what is done.
* `Registry.follows_resolution`: **what a resolution comes to**.
* `Registry.resolve_append_some`, `Registry.resolve_append_none`: one more factory answers in the
  place of the others, or they answer as before.
-/

namespace WatchedContainers

variable {ρ σ ν α : Type}

namespace Inquiry

variable {fs : List (Factory ρ σ ν)} {f : Factory ρ σ ν} {q : Inquiry ρ σ ν}
  {qs : List (Inquiry ρ σ ν)} {container : ContainerId} {l : Listener ρ ν} {config : Config}
  {answer : Option HooksRef}

theorem Genuine.append (hq : q.Genuine fs) (f : Factory ρ σ ν) : q.Genuine (fs ++ [f]) := by
  obtain ⟨g, hg, hcreate⟩ := hq
  exact ⟨g, (List.getElem?_append_left (List.getElem?_eq_some_iff.1 hg).1).trans hg, hcreate⟩

/-- Registered last, asked first. -/
theorem reverse_range_succ (n : Nat) :
    (List.range (n + 1)).reverse = n :: (List.range n).reverse := by
  rw [List.range_succ, List.reverse_append]
  rfl

theorem sought_nil : Sought ([] : List (Factory ρ σ ν)) container l config [] none where
  asked := nofun
  order := List.nil_prefix
  first := nofun
  last := rfl
  declined := ⟨fun _ => ⟨rfl, nofun⟩, fun _ => rfl⟩

theorem sought_answered (hq : q.Genuine (fs ++ [f])) (hplace : q.place = fs.length)
    (hasked : q.container = container ∧ q.listener = l ∧ q.config = config) {ref : HooksRef}
    (hanswer : q.answer = some ref) :
    Sought (fs ++ [f]) container l config [q] (some ref) where
  asked := by simpa using ⟨hq, hasked⟩
  order := by
    rw [List.length_append, List.length_singleton, reverse_range_succ, List.map_singleton, hplace]
    exact List.prefix_iff_eq_append.2 rfl
  first := nofun
  last := hanswer.symm
  declined := by simp [hanswer]

theorem Sought.declining (h : Sought fs container l config qs answer)
    (hq : q.Genuine (fs ++ [f])) (hplace : q.place = fs.length)
    (hasked : q.container = container ∧ q.listener = l ∧ q.config = config)
    (hanswer : q.answer = none) : Sought (fs ++ [f]) container l config (q :: qs) answer where
  asked := List.forall_mem_cons.2
    ⟨⟨hq, hasked⟩, fun p hp => ⟨(h.asked p hp).1.append f, (h.asked p hp).2⟩⟩
  order := by
    rw [List.length_append, List.length_singleton, reverse_range_succ, List.map_cons, hplace]
    exact (List.prefix_cons_inj _).2 h.order
  first := by
    cases qs with
    | nil => nofun
    | cons p rest =>
      rw [List.dropLast_cons_cons]
      exact List.forall_mem_cons.2 ⟨hanswer, h.first⟩
  last := by
    rw [h.last]
    cases qs with
    | nil => exact hanswer.symm
    | cons p rest => rw [List.getLast?_cons_cons]
  declined := by
    rw [h.declined, List.length_append, List.length_singleton, reverse_range_succ, List.map_cons,
      hplace, List.forall_mem_cons]
    simp [hanswer]

end Inquiry

@[simp] theorem World.uninquired_inquired (w : World ρ σ) (qs : List (Inquiry ρ σ ν)) :
    (w.inquired qs).uninquired = w :=
  rfl

/-- The factory does what it does without the list. -/
theorem Factory.create_inquired {f : Factory ρ σ ν} {container : ContainerId} {l : Listener ρ ν}
    {config : Config} {w w' : World ρ σ} {answer : Option HooksRef} (place : Nat)
    (h : f.create container l config w = (answer, w')) (earlier : List (Inquiry ρ σ ν)) :
    (f.inquired place).create container l config (w.inquired earlier) =
      (answer, w'.inquired (earlier ++ [⟨place, container, l, config, w, answer, w'⟩])) := by
  simp only [Factory.inquired, World.uninquired_inquired, h]
  rfl

namespace Registry

variable (container : ContainerId) (l : Listener ρ ν) (config : Config)

/-- **The questions that a registry asks.**  The induction takes the factories off in the order in
which they are asked: the last one is asked, and unless it answers the registry without it goes on
from where it left off. -/
theorem ask_inquired (fs : List (Factory ρ σ ν)) (w : World ρ σ)
    (earlier : List (Inquiry ρ σ ν)) :
    ∃ qs answer left,
      ask container l config (fs.mapIdx Factory.inquired).reverse (w.inquired earlier) =
        (answer, left.inquired (earlier ++ qs)) ∧
      ask container l config fs.reverse w = (answer, left) ∧
      Inquiry.Lead w qs left ∧ Inquiry.Sought fs container l config qs answer := by
  induction fs using List.reverseRecOn generalizing w earlier with
  | nil =>
    exact ⟨[], none, w, by rw [List.append_nil]; rfl, rfl, rfl, Inquiry.sought_nil⟩
  | append_singleton fs f ih =>
    obtain ⟨answer, w', hcreate⟩ : ∃ answer w', f.create container l config w = (answer, w') :=
      ⟨_, _, rfl⟩
    let q : Inquiry ρ σ ν := ⟨fs.length, container, l, config, w, answer, w'⟩
    have hq : q.Genuine (fs ++ [f]) := ⟨f, by simp [q], hcreate⟩
    have hinquired := Factory.create_inquired fs.length hcreate earlier
    rw [List.mapIdx_concat, List.reverse_append, List.reverse_append]
    simp only [List.reverse_singleton, List.singleton_append, ask, hcreate, hinquired]
    cases answer with
    | some ref =>
      exact ⟨[q], some ref, w', rfl, rfl, ⟨rfl, rfl⟩,
        Inquiry.sought_answered hq rfl ⟨rfl, rfl, rfl⟩ rfl⟩
    | none =>
      obtain ⟨qs, answer, left, hask, hplain, hlead, hsought⟩ := ih w' (earlier ++ [q])
      refine ⟨q :: qs, answer, left, ?_, hplain, ⟨rfl, hlead⟩,
        hsought.declining hq rfl ⟨rfl, rfl, rfl⟩ rfl⟩
      rw [List.append_assoc] at hask
      exact hask

variable (obs : Observers ρ σ α) (r : Registry ρ σ ν) (listener : Option (Listener ρ ν))
  (w : World ρ σ)

/-- What a resolution comes to, and what is done if nobody makes a list of the questions. -/
theorem follows_resolution :
    let t := r.resolution obs container listener config w
    r.resolve obs container listener config w = (t.result, t.after) ∧
      t.Follows obs r container listener config w := by
  cases listener with
  | none => exact ⟨rfl, rfl, rfl, rfl⟩
  | some l =>
    obtain ⟨qs, answer, left, hask, hplain, hlead, hsought⟩ :=
      ask_inquired container l config r.factories w []
    have hinquired : r.inquired.factories.reverse =
        (r.factories.mapIdx Factory.inquired).reverse := rfl
    cases answer with
    | some ref =>
      have ht : r.resolution obs container (some l) config w =
          ⟨qs, .ok ⟨left.handlers.size⟩, left.withUnbound ref config⟩ := by
        simp only [resolution, resolve, hinquired, hask]
        rfl
      have hr : r.resolve obs container (some l) config w =
          (.ok ⟨left.handlers.size⟩, left.withUnbound ref config) := by
        simp only [resolve, hplain]
        rfl
      rw [ht, hr]
      exact ⟨rfl, some ref, left, hlead, hsought, rfl, rfl⟩
    | none =>
      have ht : r.resolution obs container (some l) config w =
          ⟨qs, .error (.unrecognizedListener l.typeName),
            left.emit obs (.listenerUnknown container l.typeName)⟩ := by
        simp only [resolution, resolve, hinquired, hask]
        rfl
      have hr : r.resolve obs container (some l) config w =
          (.error (.unrecognizedListener l.typeName),
            left.emit obs (.listenerUnknown container l.typeName)) := by
        simp only [resolve, hplain]
      rw [ht, hr]
      exact ⟨rfl, none, left, hlead, hsought, rfl, rfl⟩

end Registry

/-! ### What a resolution leaves alone -/

/-- What every question leaves alone, all of them together leave alone. -/
theorem Inquiry.Lead.induction {R : World ρ σ → World ρ σ → Prop} (hrefl : ∀ w, R w w)
    (htrans : ∀ {w w' w''}, R w w' → R w' w'' → R w w'') {qs : List (Inquiry ρ σ ν)}
    {w w' : World ρ σ} (h : Inquiry.Lead w qs w') (hqs : ∀ q ∈ qs, R q.before q.after) :
    R w w' := by
  induction qs generalizing w with
  | nil =>
    obtain rfl : w = w' := h
    exact hrefl w
  | cons q rest ih =>
    obtain ⟨rfl, hrest⟩ := h
    obtain ⟨hq, hqs⟩ := List.forall_mem_cons.1 hqs
    exact htrans hq (ih hrest hqs)

theorem World.binding_withUnbound (ref : HooksRef) (config : Config) (w : World ρ σ)
    (h : HandlerRef) : ((w.withUnbound ref config).handler h).binding = (w.handler h).binding := by
  simp only [handler, withUnbound, Array.getD_eq_getD_getElem?, Array.getElem?_push]
  by_cases hnew : h.index = w.handlers.size
  · rw [if_pos hnew, hnew, Array.getElem?_eq_none (Nat.le_refl _)]
    rfl
  · rw [if_neg hnew]

namespace Resolution.Follows

variable {obs : Observers ρ σ α} {r : Registry ρ σ ν} {container : ContainerId}
  {listener : Option (Listener ρ ν)} {config : Config} {w : World ρ σ} {t : Resolution ρ σ ν}
  (h : t.Follows obs r container listener config w)

include h

theorem genuine : ∀ q ∈ t.inquiries, q.Genuine r.factories := by
  cases listener with
  | none =>
    rw [h.1]
    nofun
  | some l =>
    obtain ⟨answer, left, -, hsought, -⟩ := h
    exact fun q hq => (hsought.asked q hq).1

/-- What every question leaves alone is left alone by the resolution, if `R` does not depend on what
a resolution does itself: it adds an unbound root, or leaves a trace. -/
theorem induction {R : World ρ σ → World ρ σ → Prop} (hrefl : ∀ w, R w w)
    (htrans : ∀ {w w' w''}, R w w' → R w' w'' → R w w'')
    (hqs : ∀ q ∈ t.inquiries, R q.before q.after)
    (hadd : ∀ w ref hooks, R w (World.withUnbound ref config { w with hooks }))
    (hemit : ∀ w t, R w (w.emit obs t)) : R w t.after := by
  cases listener with
  | none =>
    obtain ⟨-, -, hafter⟩ := h
    rw [hafter]
    exact hadd w _ _
  | some l =>
    obtain ⟨answer, left, hlead, -, hend⟩ := h
    refine htrans (hlead.induction hrefl htrans hqs) ?_
    cases answer with
    | some ref =>
      rw [hend.2]
      exact hadd left ref left.hooks
    | none =>
      rw [hend.2]
      exact hemit left _

/-- A resolution binds no handler, unless a factory does. -/
theorem binding (hqs : ∀ q ∈ t.inquiries, ∀ ref,
      (q.after.handler ref).binding = (q.before.handler ref).binding) (ref : HandlerRef) :
    (t.after.handler ref).binding = (w.handler ref).binding :=
  h.induction (R := fun w w' => ∀ ref, (w'.handler ref).binding = (w.handler ref).binding)
    (fun _ _ => rfl) (fun h h' ref => (h' ref).trans (h ref)) hqs
    (fun w ref hooks => World.binding_withUnbound ref _ { w with hooks }) (fun _ _ _ => rfl) ref

end Resolution.Follows

end WatchedContainers
