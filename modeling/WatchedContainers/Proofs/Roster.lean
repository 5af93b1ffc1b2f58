import WatchedContainers.Handler.Roster
import WatchedContainers.Proofs.Enlistment
import WatchedContainers.Proofs.Lasting

/-!
# The roster of managed hooks

* `Entry.standing_append_joined`, `Entry.standing_append_left`: a registration stands behind those
  that stood before it, and a listener that leaves takes all its registrations along.
* `Entry.standing_filter`: the book of the other phase does not matter.
* `World.Booked.rosters`: the hooks have the registrations that stand, after any run.
* `World.booked_grant`: every request can be entered in the book, and so can what listeners do when
  one calls them.
* `World.Booked.roster`: **what the lists of listeners are**, and what calls of them come to.
-/

namespace WatchedContainers

variable {ρ σ α : Type}

/-! ### Books -/

theorem Registration.without_cons [DecidableEq ρ] (l : ρ) (r : Registration ρ)
    (rs : List (Registration ρ)) :
    without l (r :: rs) = if r.listener = l then without l rs else r :: without l rs := by
  unfold without
  rw [List.filter_cons]
  by_cases hl : r.listener = l <;> simp [hl]

namespace Entry

variable [DecidableEq ρ] (p q : Phase) (es : List (Entry ρ))

theorem standing_append_joined (r : Registration ρ) :
    standing p (es ++ [joined q r]) =
      if q = p then standing p es ++ [r] else standing p es := by
  induction es with
  | nil => by_cases hq : q = p <;> simp [standing, hq]
  | cons e later ih =>
    cases e with
    | joined q' r' =>
      have hmem : left p r'.listener ∈ later ++ [joined q r] ↔ left p r'.listener ∈ later := by
        simp
      simp only [List.cons_append, standing, hmem, ih]
      split <;> split <;> rfl
    | left q' l => exact ih

/-- A listener that leaves takes all its registrations along, and no others. -/
theorem standing_append_left (l : ρ) :
    standing p (es ++ [left q l]) =
      if q = p then Registration.without l (standing p es) else standing p es := by
  induction es with
  | nil => simp [standing, Registration.without]
  | cons e later ih =>
    cases e with
    | left q' l' => exact ih
    | joined q' r =>
      by_cases hq : q = p
      · subst hq
        have hmem : left q r.listener ∉ later ++ [left q l] ↔
            left q r.listener ∉ later ∧ r.listener ≠ l := by simp
        rw [if_pos rfl] at ih ⊢
        simp only [List.cons_append, standing, hmem, ih]
        by_cases hstands : q' = q ∧ left q r.listener ∉ later
        · rw [if_pos hstands, Registration.without_cons]
          by_cases hl : r.listener = l
          · rw [if_neg fun h => h.2.2 hl, if_pos hl]
          · rw [if_pos ⟨hstands.1, hstands.2, hl⟩, if_neg hl]
        · rw [if_neg hstands, if_neg fun h => hstands ⟨h.1, h.2.1⟩]
      · have hmem : left p r.listener ∈ later ++ [left q l] ↔ left p r.listener ∈ later := by
          simp [Ne.symm hq]
        rw [if_neg hq] at ih ⊢
        simp only [List.cons_append, standing, hmem, ih]

/-- The two phases have nothing to do with each other. -/
theorem standing_filter : standing p (es.filter (·.phase = p)) = standing p es := by
  induction es with
  | nil => rfl
  | cons e later ih =>
    by_cases he : e.phase = p
    · rw [List.filter_cons, if_pos (decide_eq_true he)]
      cases e with
      | joined q r =>
        have hmem : left p r.listener ∈ later.filter (·.phase = p) ↔ left p r.listener ∈ later := by
          simp [List.mem_filter, phase]
        simp only [standing, hmem, ih]
      | left q l => exact ih
    · rw [List.filter_cons, if_neg (mt of_decide_eq_true he), ih]
      cases e with
      | joined q r => rw [standing, if_neg fun h => he h.1]
      | left q l => rfl

/-- Registrations behind a book all stand. -/
theorem standing_append_map_joined (rs : List (Registration ρ)) :
    standing p (es ++ rs.map (joined q)) =
      if q = p then standing p es ++ rs else standing p es := by
  induction rs using List.reverseRecOn with
  | nil => simp
  | append_singleton rs r ih =>
    rw [List.map_append, List.map_singleton, ← List.append_assoc, standing_append_joined, ih]
    split
    · rw [List.append_assoc]
    · rfl

theorem standing_book (s : ManagedHooks ρ) : standing p s.book = s.registered p := by
  have hpre := standing_append_map_joined p .pre [] s.pre
  rw [ManagedHooks.book, standing_append_map_joined, ← List.nil_append (s.pre.map _), hpre]
  cases p <;> rfl

end Entry

theorem ManagedHooks.config_withRegistered (s : ManagedHooks ρ) (p : Phase)
    (rs : List (Registration ρ)) : (s.withRegistered p rs).config = s.config := by
  cases p <;> rfl

/-! ### Calls of the lists -/

namespace World

variable {w w' w'' w₀ : World ρ σ} {h : HandlerRef} {ref : HooksRef} {config : Config}
  {book es es' : List (Entry ρ)} {s s₀ : ManagedHooks ρ}

theorem reachHooks_eq (obs : Observers ρ σ α) (w : World ρ σ) (h : HandlerRef) :
    (∃ ref, w.hooksRef? h = some ref ∧ w.reachHooks obs h = (.ok ref, w)) ∨
      ∃ v, w.hooksRef? h = none ∧ w.reachHooks obs h = (.error .rootDetached, v) ∧
        v.hooks = w.hooks := by
  unfold hooksRef? reachHooks reachRoot
  cases w.root? h with
  | none => exact .inr ⟨_, rfl, rfl, rfl⟩
  | some root =>
    simp only [Option.bind_some]
    cases (w.handler root).role with
    | root ref => exact .inl ⟨ref, rfl, rfl⟩
    | range | keyed => exact .inr ⟨w, rfl, rfl, rfl⟩

section ManagedHooks

variable {β : Type} (obs : Observers ρ σ α) {operation : String}
  {f : HooksRef → ManagedHooks ρ → World ρ σ → β × World ρ σ}

theorem onManagedHooks_of_hooksRef? (hreach : w.hooksRef? h = some ref)
    (hs : w.hooksAt ref = .managed s) :
    w.onManagedHooks obs h operation f = (.ok (f ref s w).1, (f ref s w).2) := by
  rcases reachHooks_eq obs w h with ⟨ref', href', heq⟩ | ⟨v, hnone, -, -⟩
  · obtain rfl := Option.some.inj (hreach.symm.trans href')
    simp only [onManagedHooks, heq, hs]
  · simp [hreach] at hnone

theorem hooksAt_onManagedHooks (hreach : w.hooksRef? h ≠ some ref)
    (hf : ∀ ref' s, ref' ≠ ref → (f ref' s w).2.hooksAt ref = w.hooksAt ref) :
    (w.onManagedHooks obs h operation f).2.hooksAt ref = w.hooksAt ref := by
  rcases reachHooks_eq obs w h with ⟨ref', href', heq⟩ | ⟨v, -, heq, hv⟩
  · have hne : ref' ≠ ref := by
      rintro rfl
      exact hreach href'
    cases hs : w.hooksAt ref' with
    | acceptAll | policy => simp only [onManagedHooks, heq, hs]
    | managed s =>
      simp only [onManagedHooks, heq, hs]
      exact hf ref' s hne
  · simp only [onManagedHooks, heq, hooksAt, hv]

end ManagedHooks

variable [DecidableEq ρ]

namespace Rosters

variable (hw : w.Rosters ref book s)

include hw

theorem of_withRegistered {p : Phase} {e : Entry ρ} {rs : List (Registration ρ)}
    (hstanding : ∀ q, Entry.standing q (book ++ [e]) =
      if p = q then rs else Entry.standing q book)
    (hhooks : w'.hooksAt ref = .managed (s.withRegistered p rs)) :
    w'.Rosters ref (book ++ [e]) (s.withRegistered p rs) := by
  refine ⟨hhooks, fun q => ?_⟩
  rw [ManagedHooks.registered_withRegistered, hstanding, hw.registered q]

variable (obs : Observers ρ σ α)

/-- A registration stands behind those that stood before. -/
theorem registerAt (p : Phase) (l : ρ) (mask : Mask) :
    (w.registerAt obs ref s p l mask).Rosters ref (book ++ [.joined p ⟨l, mask⟩])
      (s.withRegistered p (Entry.standing p book ++ [⟨l, mask⟩])) := by
  refine hw.of_withRegistered (fun q => ?_) ?_
  · rw [Entry.standing_append_joined]
    by_cases hp : p = q
    · rw [hp]
    · rw [if_neg hp, if_neg hp]
  · rw [← hw.registered p]
    exact hooksAt_setHooks hw.hooks _

theorem subscribe (p : Phase) (l : ρ) :
    w.subscribe obs ref p l = w.registerAt obs ref s p l s.config.defaultMask := by
  simp only [World.subscribe, hw.hooks]

variable (hh : w.hooksRef? h = some ref) (p : Phase)

include hh

theorem addListener (l : ρ) (mask : Mask) :
    w.addListener obs h p l mask = (.ok (), w.registerAt obs ref s p l mask) :=
  onManagedHooks_of_hooksRef? obs hh hw.hooks

theorem listeners :
    w.listeners obs h p = (.ok ((Entry.standing p book).map (·.listener)), w) := by
  rw [← hw.registered p]
  exact onManagedHooks_of_hooksRef? obs hh hw.hooks

/-- A listener that is removed takes all its registrations along, and the answer is whether there
were any. -/
theorem removeListener (l : ρ) :
    ∃ w', w.removeListener obs h p l =
        (.ok ((Entry.standing p book).any fun r => r.listener = l), w') ∧
      w'.Rosters ref (book ++ [.left p l])
        (s.withRegistered p (Registration.without l (Entry.standing p book))) := by
  have hremove : w.removeListener obs h p l =
      (.ok ((Entry.standing p book).any fun r => r.listener = l), w.setHooks ref
        (.managed (s.withRegistered p (Registration.without l (Entry.standing p book))))) := by
    rw [← Registration.length_without, ← hw.registered p]
    exact onManagedHooks_of_hooksRef? obs hh hw.hooks
  refine ⟨_, hremove, hw.of_withRegistered (fun q => ?_) (hooksAt_setHooks hw.hooks _)⟩
  rw [Entry.standing_append_left]
  by_cases hp : p = q
  · rw [hp]
  · rw [if_neg hp, if_neg hp]

end Rosters

/-! ### Runs -/

namespace Booked

theorem trans (hw : Booked α ref config es w w') (hw' : Booked α ref config es' w' w'') :
    Booked α ref config (es ++ es') w w'' := by
  induction hw' with
  | refl => rwa [List.append_nil]
  | register _ obs h p l mask hreach ih =>
    rw [← List.append_assoc]
    exact (ih hw).register obs h p l mask hreach
  | subscribe _ obs p l ih =>
    rw [← List.append_assoc]
    exact (ih hw).subscribe obs p l
  | unregister _ obs h p l hreach ih =>
    rw [← List.append_assoc]
    exact (ih hw).unregister obs h p l hreach
  | list _ obs h p hreach ih => exact (ih hw).list obs h p hreach
  | elsewhere _ hhooks ih => exact (ih hw).elsewhere hhooks

/-- **The hooks have the registrations that stand**, after any run. -/
theorem rosters (hw : Booked α ref config es w w') (hroster : w.Rosters ref book s)
    (hconfig : s.config = config) :
    ∃ s', w'.Rosters ref (book ++ es) s' ∧ s'.config = config := by
  induction hw with
  | refl => exact ⟨s, by rwa [List.append_nil], hconfig⟩
  | register _ obs h p l mask hreach ih =>
    obtain ⟨s', hs', hconfig'⟩ := ih hroster
    rw [hs'.addListener obs hreach, ← List.append_assoc]
    exact ⟨_, hs'.registerAt obs p l mask, (s'.config_withRegistered ..).trans hconfig'⟩
  | subscribe _ obs p l ih =>
    obtain ⟨s', hs', hconfig'⟩ := ih hroster
    rw [hs'.subscribe obs, hconfig', ← List.append_assoc]
    exact ⟨_, hs'.registerAt obs p l _, (s'.config_withRegistered ..).trans hconfig'⟩
  | unregister _ obs h p l hreach ih =>
    obtain ⟨s', hs', hconfig'⟩ := ih hroster
    obtain ⟨v, hremove, hv⟩ := hs'.removeListener obs hreach p l
    rw [hremove, ← List.append_assoc]
    exact ⟨_, hv, (s'.config_withRegistered ..).trans hconfig'⟩
  | list _ obs h p hreach ih =>
    obtain ⟨s', hs', hconfig'⟩ := ih hroster
    rw [hs'.listeners obs hreach]
    exact ⟨s', hs', hconfig'⟩
  | elsewhere _ hhooks ih =>
    obtain ⟨s', hs', hconfig'⟩ := ih hroster
    exact ⟨s', ⟨hhooks.trans hs'.hooks, hs'.registered⟩, hconfig'⟩

end Booked

/-! ### Listeners that join and leave while they are called -/

/-- **Every request can be entered in the book** if what the parties do can, also one that calls
them. -/
theorem booked_grant [ObjectIdentity α] {obs : Observers ρ σ α} (ho : obs.Books ref config)
    (x : Request ρ α) (w : World ρ σ) :
    ∃ es, Booked α ref config es w (w.grant obs x).2 := by
  have helse : ∀ {w w' : World ρ σ}, w'.hooksAt ref = w.hooksAt ref →
      ∃ es, Booked α ref config es w w' := fun hhooks => ⟨[], (Booked.refl _).elsewhere hhooks⟩
  have htrans : ∀ {w w' w'' : World ρ σ}, (∃ es, Booked α ref config es w w') →
      (∃ es, Booked α ref config es w' w'') → ∃ es, Booked α ref config es w w'' := by
    rintro w w' w'' ⟨es, hw⟩ ⟨es', hw'⟩
    exact ⟨es ++ es', hw.trans hw'⟩
  cases x with
  | register h p l mask =>
    by_cases hreach : w.hooksRef? h = some ref
    · exact ⟨_, (Booked.refl w).register obs h p l mask hreach⟩
    · have hsame : (w.addListener obs h p l mask).2.hooksAt ref = w.hooksAt ref :=
        hooksAt_onManagedHooks obs hreach fun _ _ hne => hooksAt_setHooks_of_ne _ hne.symm _
      exact helse hsame
  | subscribe ref' p l =>
    by_cases href : ref' = ref
    · subst href
      exact ⟨_, (Booked.refl w).subscribe obs p l⟩
    · simp only [grant, World.subscribe]
      split
      · exact helse (hooksAt_setHooks_of_ne _ (Ne.symm href) _)
      · exact helse rfl
  | unregister h p l =>
    by_cases hreach : w.hooksRef? h = some ref
    · exact ⟨_, (Booked.refl w).unregister obs h p l hreach⟩
    · have hsame : (w.removeListener obs h p l).2.hooksAt ref = w.hooksAt ref :=
        hooksAt_onManagedHooks obs hreach fun _ _ hne => hooksAt_setHooks_of_ne _ hne.symm _
      exact helse hsame
  | list h p =>
    by_cases hreach : w.hooksRef? h = some ref
    · exact ⟨_, (Booked.refl w).list obs h p hreach⟩
    · have hsame : (w.listeners obs h p).2.hooksAt ref = w.hooksAt ref :=
        hooksAt_onManagedHooks obs hreach fun _ _ _ => rfl
      exact helse hsame
  | propose h m size =>
    exact propose_induction (R := fun w w' => ∃ es, Booked α ref config es w w')
      (fun _ => helse rfl) htrans ho.decide (fun _ _ _ => helse rfl)
      (fun _ _ _ _ _ _ => helse rfl) w h m size
  | conclude h c size =>
    exact conclude_induction (R := fun w w' => ∃ es, Booked α ref config es w w')
      (fun _ => helse rfl) htrans ho.notify (fun _ _ _ => helse rfl) w h c size
  | rangeView h start stop =>
    have hsame : (w.makeRangeView obs h start stop).2.hooksAt ref = w.hooksAt ref := by
      rcases makeRangeView_cases obs w h start stop with heq | ⟨t, x, -, heq⟩ <;> rw [heq]
      rfl
    exact helse hsame
  | keyedView h =>
    have hsame : (w.makeKeyedView obs h).2.hooksAt ref = w.hooksAt ref := by
      rcases makeKeyedView_cases obs w h with heq | ⟨t, x, -, heq⟩ <;> rw [heq]
      rfl
    exact helse hsame
  | bind h id caps =>
    have hsame : (w.bind obs h id caps).2.hooksAt ref = w.hooksAt ref := by
      rcases bind_cases obs w h id caps with heq | ⟨t, -, heq⟩ <;> rw [heq]
      rfl
    exact helse hsame

/-! ### The lists -/

/-- **The lists of listeners are the registrations that stand.**  Listeners join managed hooks and
leave them through any handlers that reach the hooks, roots and views of any kind, or subscribe to
the hooks themselves, in any order and as often as they like.  Then the list for each phase has the
registrations that were made for it, in that order, but for those whose listener left that phase
later.  What was done for the other phase does not matter.

At that point, whoever reaches the hooks is told these listeners.  If a listener leaves, all its
registrations go, whatever their masks, the others stay in their order, and the answer is whether
there was one; a listener that joins stands last, also if it left before; one that subscribes joins
with the default mask of the configuration. -/
theorem Booked.roster (hs₀ : w₀.hooksAt ref = .managed s₀)
    (hw : Booked α ref s₀.config es w₀ w) :
    let book := s₀.book ++ es
    ∃ s, w.hooksAt ref = .managed s ∧ s.config = s₀.config ∧ ∀ p,
      s.registered p = Entry.standing p book ∧
      Entry.standing p book = Entry.standing p (book.filter (·.phase = p)) ∧
      (∀ (obs : Observers ρ σ α) (l : ρ), (w.subscribe obs ref p l).hooksAt ref = .managed
        (s.withRegistered p (Entry.standing p book ++ [⟨l, s₀.config.defaultMask⟩]))) ∧
      ∀ (obs : Observers ρ σ α) (h : HandlerRef), w.hooksRef? h = some ref →
        w.listeners obs h p = (.ok ((Entry.standing p book).map (·.listener)), w) ∧
        (∀ l mask, ∃ w', w.addListener obs h p l mask = (.ok (), w') ∧ w'.hooksAt ref = .managed
          (s.withRegistered p (Entry.standing p book ++ [⟨l, mask⟩]))) ∧
        ∀ l, ∃ w', w.removeListener obs h p l =
            (.ok ((Entry.standing p book).any fun r => r.listener = l), w') ∧
          w'.hooksAt ref = .managed
            (s.withRegistered p ((Entry.standing p book).filter fun r => r.listener ≠ l)) := by
  intro book
  have hroster₀ : w₀.Rosters ref s₀.book s₀ := ⟨hs₀, fun p => (Entry.standing_book p s₀).symm⟩
  obtain ⟨s, hs, hconfig⟩ := hw.rosters hroster₀ rfl
  refine ⟨s, hs.hooks, hconfig, fun p => ⟨hs.registered p, (Entry.standing_filter p _).symm,
    fun obs l => ?_, fun obs h hh => ⟨hs.listeners obs hh p, fun l mask => ?_, fun l => ?_⟩⟩⟩
  · rw [hs.subscribe obs, hconfig]
    exact (hs.registerAt obs p l _).hooks
  · exact ⟨_, hs.addListener obs hh p l mask, (hs.registerAt obs p l mask).hooks⟩
  · obtain ⟨w', hremove, hw'⟩ := hs.removeListener obs hh p l
    exact ⟨w', hremove, hw'.hooks⟩

/-- A listener joins twice, under two masks and once through a view, before another one does.  It
subscribes to the other phase, leaves this one through the view, and joins again. -/
theorem Booked.roster_rejoined :
    let obs : Observers Nat Unit Int :=
      ⟨fun _ _ w => (true, w), fun _ _ w => w, fun _ => id, fun _ => id⟩
    let config : Config := { defaultMask := .copying }
    let w₀ : World Nat Unit :=
      { nextId := 2, handlers := #[{ role := .root ⟨0⟩, binding := some ⟨⟨1⟩, .bag⟩, config }]
        hooks := #[.managed { config }], outside := () }
    let first := (w₀.addListener obs ⟨0⟩ .pre 5 .adding).2
    let viewed := (first.makeRangeView obs ⟨0⟩ 1 3).2
    let second := (viewed.addListener obs ⟨1⟩ .pre 5 .changing).2
    let third := (second.addListener obs ⟨1⟩ .pre 6 .changing).2
    let removed := ((third.subscribe obs ⟨0⟩ .post 5).removeListener obs ⟨1⟩ .pre 5).2
    let w := (removed.addListener obs ⟨0⟩ .pre 5 .removing).2
    w.listeners obs ⟨1⟩ .pre = (.ok [6, 5], w) ∧
      (w.removeListener obs ⟨1⟩ .pre 7).1 = .ok false ∧
      ∃ s, w.hooksAt ⟨0⟩ = .managed s ∧ s.pre = [⟨6, .changing⟩, ⟨5, .removing⟩] ∧
        s.post = [⟨5, .copying⟩] := by
  intro obs config w₀ first viewed second third removed w
  have hfirst : Booked Int ⟨0⟩ config [.joined .pre ⟨5, .adding⟩] w₀ first :=
    (Booked.refl w₀).register obs ⟨0⟩ .pre 5 .adding rfl
  have hviewed : Booked Int ⟨0⟩ config [.joined .pre ⟨5, .adding⟩] w₀ viewed := hfirst.elsewhere rfl
  have hsecond := hviewed.register obs ⟨1⟩ .pre 5 .changing (by decide +kernel +zetaReduce)
  have hthird := hsecond.register obs ⟨1⟩ .pre 6 .changing (by decide +kernel +zetaReduce)
  have hremoved := (hthird.subscribe obs .post 5).unregister obs ⟨1⟩ .pre 5
    (by decide +kernel +zetaReduce)
  have hw : Booked Int ⟨0⟩ config [.joined .pre ⟨5, .adding⟩, .joined .pre ⟨5, .changing⟩,
      .joined .pre ⟨6, .changing⟩, .joined .post ⟨5, .copying⟩, .left .pre 5,
      .joined .pre ⟨5, .removing⟩] w₀ w :=
    hremoved.register obs ⟨0⟩ .pre 5 .removing (by decide +kernel +zetaReduce)
  have hs₀ : w₀.hooksAt ⟨0⟩ = .managed { config } := rfl
  obtain ⟨s, hs, -, hlists⟩ := Booked.roster hs₀ hw
  obtain ⟨hpre, -, -, hcalls⟩ := hlists .pre
  obtain ⟨hlisted, -, hleft⟩ := hcalls obs ⟨1⟩ (by decide +kernel +zetaReduce)
  obtain ⟨w', hremove, -⟩ := hleft 7
  have hstand : Entry.standing .pre (ManagedHooks.book { config } ++
      [.joined .pre ⟨5, .adding⟩, .joined .pre ⟨5, .changing⟩, .joined .pre ⟨6, .changing⟩,
        .joined .post ⟨5, .copying⟩, .left .pre 5, .joined .pre ⟨5, .removing⟩]) =
      [⟨6, .changing⟩, ⟨5, .removing⟩] := by decide +kernel
  rw [hstand] at hpre hlisted hremove
  exact ⟨hlisted, congrArg Prod.fst hremove, s, hs, hpre, (hlists .post).1⟩

end World

end WatchedContainers
