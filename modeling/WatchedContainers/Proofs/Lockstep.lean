import WatchedContainers.Proofs.Run
import WatchedContainers.Watched.Locality

/-!
# Runs in lockstep

Two runs of a script, on two sessions that have something in common, under judges that do not
contradict each other (`Course.Concur`).  Some actions of the script may be left out of the second
run.  That both runs are asked equally often is a consequence.

* `Standard.Sound.concur_counting`: judges that decide alike by the number of the question do not
  contradict each other.
* `Course.Agrees`: the runs answer alike, are heard of alike and end alike.
* `Course.Agrees.drop`, `.quiet`, `.command`: **one step in front of runs that agree**, by what
  becomes of it.
-/

namespace WatchedContainers

variable {C κ α : Type}

/-- Two runs answer alike wherever the second one takes part, the first one is heard of as the
second one is, but for the translation `tr`, and the sessions they end with are alike. -/
structure Course.Agrees (shared : Action α → Bool) (tr : Heard α → Heard α)
    (alike : Session C κ α → Session C κ α → Prop) (course course₀ : Course C κ α) : Prop where
  responses : (course.turns.filter fun t => shared t.action).map (·.response) = course₀.responses
  heard : course.heard = course₀.heard.map tr
  ends : alike course.session course₀.session

/-! ### Events through a view -/

namespace Seat

theorem answers_reports [ObjectIdentity α] (seat : Seat) (c : Completion α)
    (preSize postSize : Nat) :
    (seat.reports c preSize postSize).filterMap Heard.answer? = [] := by
  unfold reports
  split <;> rfl

variable (root root₀ : HandlerRef) (id id₀ : ContainerId) (view : Viewpoint) (flank : Nat)

/-- A proposal at a view is the one of a container of its elements, seen through the view. -/
theorem before_throughView (m : Modification α) (size : Nat) :
    (Seat.mk root id (some view)).before m (size + flank) =
      ((Seat.mk root₀ id₀ none).before m size).throughView id root view flank := by
  change Event.before _ _ (m.shift view.offset) _ _ =
    (Event.before _ _ (m.shift 0) _ _).throughView _ _ _ _
  rw [Modification.shift_zero]
  rfl

theorem after_throughView [ObjectIdentity α] (c : Completion α) (preSize postSize : Nat) :
    (Seat.mk root id (some view)).after c (preSize + flank) (postSize + flank) =
      ((Seat.mk root₀ id₀ none).after c preSize postSize).throughView id root view flank := by
  change Event.after _ _ view.offset c _ _ _ = (Event.after _ _ 0 c _ _ _).throughView _ _ _ _
  simp only [Event.after, Event.throughView, Modification.shift_zero, Option.map_some]

theorem reports_throughView [ObjectIdentity α] (c : Completion α) (preSize postSize : Nat) :
    (Seat.mk root id (some view)).reports c (preSize + flank) (postSize + flank) =
      ((Seat.mk root₀ id₀ none).reports c preSize postSize).map
        (Heard.throughView id root view flank) := by
  by_cases h : c.absent?.isSome
  · simp only [reports, if_pos h, List.map_nil]
  · simp only [reports, if_neg h, List.map_cons, List.map_nil, Heard.throughView]
    rw [after_throughView root root₀ id id₀ view flank]

end Seat

theorem Heard.answer?_throughView (observed : ContainerId) (handler : HandlerRef)
    (view : Viewpoint) (flank : Nat) (x : Heard α) :
    (x.throughView observed handler view flank).answer? = x.answer? := by
  cases x <;> rfl

/-! ### Answers -/

namespace Standard

variable [ObjectIdentity α] {k : Standard α C κ} {j : Judge α} {rest : List (Action α)}
  {s s' : Session C κ α} {w : HeardWorld α}

theorem answers_of_quiet {a : Action α} {r : Except Error (Response α)}
    (h : k.act j.observers a s w = some (r, s', w)) :
    (k.run j (a :: rest) s w).answers = (k.run j rest s' w).answers := by
  have hheard : (Turn.mk a s w r s' w).heard = [] := Turn.heard_eq (List.append_nil _).symm
  rw [run_of_act rest h, Course.answers_after, hheard]
  rfl

theorem answers_of_asked {a : Action α} {r : Except Error (Response α)} {root : HandlerRef}
    {size : Nat} {e : Event α} {answer : Bool} {told : List (Heard α)}
    (htold : told.filterMap Heard.answer? = [])
    (h : k.act j.observers a s w =
      some (r, s', w.judged root size (.asked e answer :: told))) :
    (k.run j (a :: rest) s w).answers = answer ::
      (k.run j rest s' (w.judged root size (.asked e answer :: told))).answers := by
  have hfirst : (Heard.asked e answer :: told).filterMap Heard.answer? = [answer] :=
    congrArg (answer :: ·) htold
  rw [run_of_act rest h, Course.answers_after, Turn.heard_eq rfl, hfirst]
  rfl

section Commands

variable {command : Command α} {f : C → Except Error (Mutation C α)} {m : Mutation C α}

/-- A command that comes to a mutation, by what the judge says to it. -/
theorem act_mutation (hs : k.Sound s w) (hf : k.mutation? s.frames command = some f)
    (hm : f s.container = .ok m) :
    k.act j.observers (.command command) s w =
      let e := s.seat.before m.proposal (k.size s.container)
      if j w.outside e then
        some (.ok m.response, k.afterward command s m.container,
          w.judged s.seat.root (k.size s.container) (.asked e true ::
            s.seat.reports m.completion (k.size s.container) (k.size m.container)))
      else
        some (.ok command.refusal, s,
          w.judged s.seat.root (k.size s.container) [.asked e false]) := by
  rw [act_command hs, hf, Option.map_some, hm, verdict]
  dsimp only
  split <;> rfl

/-- The first answer in a run is the one that a command's proposal gets. -/
theorem head?_answers (hs : k.Sound s w) (hf : k.mutation? s.frames command = some f)
    (hm : f s.container = .ok m) :
    (k.run j (.command command :: rest) s w).answers.head? =
      some (j w.outside (s.seat.before m.proposal (k.size s.container))) := by
  have hact := act_mutation (j := j) hs hf hm
  dsimp only at hact
  cases hd : j w.outside (s.seat.before m.proposal (k.size s.container)) with
  | false =>
    rw [hd, if_neg (by simp)] at hact
    rw [answers_of_asked rfl hact, List.head?_cons]
  | true =>
    rw [hd, if_pos rfl] at hact
    rw [answers_of_asked (Seat.answers_reports ..) hact, List.head?_cons]

end Commands

/-! ### Judges that decide by the number of the question -/

/-- A step asks at most once. -/
theorem Step.answers {a : Action α} {r : Except Error (Response α)}
    (h : k.Step j s w a r s' w') :
    ∃ calls, w'.outside = w.outside ++ calls ∧
      (calls.filterMap Heard.answer? = [] ∨
        ∃ e, calls.filterMap Heard.answer? = [j w.outside e]) := by
  cases h with
  | failed | answered | moved | notOpened | closed => exact ⟨[], (List.append_nil _).symm, .inl rfl⟩
  | opened o f w' hf => exact ⟨[], hf.outside.trans (List.append_nil _).symm, .inl rfl⟩
  | refused command f m hf hm hj => exact ⟨_, rfl, .inr ⟨_, congrArg ([·]) hj.symm⟩⟩
  | accepted command f m hf hm hj =>
    refine ⟨_, rfl, .inr ⟨s.seat.before m.proposal (k.size s.container), ?_⟩⟩
    rw [hj]
    exact congrArg (true :: ·) (Seat.answers_reports ..)

/-- Under a judge that decides by the number of the question the answers are known in advance. -/
theorem Sound.getElem?_answers {f : Nat → Bool} (hs : k.Sound s w) (script : List (Action α))
    {i : Nat} {b : Bool} (h : (k.run (.counting f) script s w).answers[i]? = some b) :
    b = f ((w.outside.filterMap Heard.answer?).length + i) := by
  induction script generalizing s w i with
  | nil => cases h
  | cons a rest ih =>
    cases ha : k.act (Judge.counting f).observers a s w with
    | none =>
      rw [run_of_none rest ha] at h
      exact ih hs h
    | some x =>
      obtain ⟨r, s', w'⟩ := x
      have hstep := hs.step ha
      obtain ⟨calls, hcalls, hask⟩ := hstep.answers
      rw [run_of_act rest ha, Course.answers_after, Turn.heard_eq hcalls] at h
      have hrest := fun {i} => ih (i := i) (hstep.sound hs)
      rw [hcalls, List.filterMap_append] at hrest
      rcases hask with hask | ⟨e, hask⟩
      · rw [hask] at h hrest
        simpa using hrest h
      · rw [hask] at h hrest
        cases i with
        | zero => exact (Option.some.inj h).symm
        | succ i =>
          have hb := hrest h
          rwa [List.length_append, List.length_singleton, Nat.add_assoc, Nat.add_comm 1 i] at hb

/-- **Judges that decide alike by the number of the question** do not contradict each other,
whatever is played under them. -/
theorem Sound.concur_counting {f f₀ : Nat → Bool} {s₀ : Session C κ α} {w₀ : HeardWorld α}
    (hs : k.Sound s w) (hs₀ : k.Sound s₀ w₀)
    (hf : ∀ i, f ((w.outside.filterMap Heard.answer?).length + i) =
      f₀ ((w₀.outside.filterMap Heard.answer?).length + i)) (script script₀ : List (Action α)) :
    (k.run (.counting f) script s w).Concur (k.run (.counting f₀) script₀ s₀ w₀) := by
  rintro ⟨b, b₀⟩ hp
  obtain ⟨i, hi⟩ := List.getElem?_of_mem hp
  obtain ⟨hb, hb₀⟩ := List.getElem?_zip_eq_some.1 hi
  calc
    b = f _ := hs.getElem?_answers script hb
    _ = f₀ _ := hf i
    _ = b₀ := (hs₀.getElem?_answers script₀ hb₀).symm

end Standard

/-! ### What concurring runs go on with -/

namespace Course.Concur

theorem head {c c₀ : Course C κ α} (h : c.Concur c₀) {b b₀ : Bool}
    (hb : c.answers.head? = some b) (hb₀ : c₀.answers.head? = some b₀) : b = b₀ := by
  rw [List.head?_eq_some_iff] at hb hb₀
  obtain ⟨bs, hb⟩ := hb
  obtain ⟨bs₀, hb₀⟩ := hb₀
  rw [Concur, hb, hb₀] at h
  exact h (b, b₀) List.mem_cons_self

variable [ObjectIdentity α] {k : Standard α C κ} {j j₀ : Judge α} {a a₀ : Action α}
  {rest rest₀ : List (Action α)} {s s' s₀ s₀' : Session C κ α} {w w₀ : HeardWorld α}

theorem drop {c₀ : Course C κ α} {r : Except Error (Response α)}
    (h : (k.run j (a :: rest) s w).Concur c₀)
    (hp : k.act j.observers a s w = some (r, s', w)) : (k.run j rest s' w).Concur c₀ := by
  rwa [Concur, Standard.answers_of_quiet hp] at h

theorem quiet {r r₀ : Except Error (Response α)}
    (h : (k.run j (a :: rest) s w).Concur (k.run j₀ (a₀ :: rest₀) s₀ w₀))
    (hp : k.act j.observers a s w = some (r, s', w))
    (hq : k.act j₀.observers a₀ s₀ w₀ = some (r₀, s₀', w₀)) :
    (k.run j rest s' w).Concur (k.run j₀ rest₀ s₀' w₀) := by
  rwa [Concur, Standard.answers_of_quiet hp, Standard.answers_of_quiet hq] at h

theorem asked {r r₀ : Except Error (Response α)} {root root₀ : HandlerRef} {size size₀ : Nat}
    {e e₀ : Event α} {answer answer₀ : Bool} {told told₀ : List (Heard α)}
    (h : (k.run j (a :: rest) s w).Concur (k.run j₀ (a₀ :: rest₀) s₀ w₀))
    (htold : told.filterMap Heard.answer? = []) (htold₀ : told₀.filterMap Heard.answer? = [])
    (hp : k.act j.observers a s w =
      some (r, s', w.judged root size (.asked e answer :: told)))
    (hq : k.act j₀.observers a₀ s₀ w₀ =
      some (r₀, s₀', w₀.judged root₀ size₀ (.asked e₀ answer₀ :: told₀))) :
    (k.run j rest s' (w.judged root size (.asked e answer :: told))).Concur
      (k.run j₀ rest₀ s₀' (w₀.judged root₀ size₀ (.asked e₀ answer₀ :: told₀))) := by
  rw [Concur, Standard.answers_of_asked htold hp, Standard.answers_of_asked htold₀ hq] at h
  exact (List.forall_mem_cons.1 h).2

end Course.Concur

/-! ### Steps in front of runs that agree -/

namespace Course.Agrees

variable {shared : Action α → Bool} {tr : Heard α → Heard α}
  {alike : Session C κ α → Session C κ α → Prop}

/-- Runs that agree are asked equally often, and answered alike. -/
theorem answers {course course₀ : Course C κ α} (h : Agrees shared tr alike course course₀)
    (htr : ∀ x, (tr x).answer? = x.answer?) : course.answers = course₀.answers := by
  rw [Course.answers, h.heard, List.filterMap_map]
  exact congrArg (fun g => course₀.heard.filterMap g) (funext htr)

theorem after {course course₀ : Course C κ α} {t t₀ : Turn C κ α}
    (h : Agrees shared tr alike course course₀) (ht : shared t.action)
    (hr : t.response = t₀.response) (hh : t.heard = t₀.heard.map tr) :
    Agrees shared tr alike (course.after t) (course₀.after t₀) where
  responses := by
    rw [Course.responses_after, ← h.responses, ← hr, Course.after]
    simp [ht]
  heard := by rw [Course.heard_after, Course.heard_after, hh, h.heard, List.map_append]
  ends := h.ends

variable [ObjectIdentity α] {k : Standard α C κ} {j j₀ : Judge α} {a : Action α}
  {rest rest₀ : List (Action α)} {s s' s₀ s₀' : Session C κ α} {w w₀ : HeardWorld α}

theorem drop {r : Except Error (Response α)} (ha : shared a = false)
    (hp : k.act j.observers a s w = some (r, s', w))
    (h : Agrees shared tr alike (k.run j rest s' w) (k.run j₀ rest₀ s₀ w₀)) :
    Agrees shared tr alike (k.run j (a :: rest) s w) (k.run j₀ rest₀ s₀ w₀) := by
  have hheard : (Turn.mk a s w r s' w).heard = [] := Turn.heard_eq (List.append_nil _).symm
  rw [Standard.run_of_act rest hp]
  refine ⟨?_, ?_, h.ends⟩
  · rw [← h.responses, Course.after]
    simp [ha]
  · rw [Course.heard_after, hheard, List.nil_append, h.heard]

theorem quiet {r : Except Error (Response α)} (ha : shared a)
    (hp : k.act j.observers a s w = some (r, s', w))
    (hq : k.act j₀.observers a s₀ w₀ = some (r, s₀', w₀))
    (h : Agrees shared tr alike (k.run j rest s' w) (k.run j₀ rest₀ s₀' w₀)) :
    Agrees shared tr alike (k.run j (a :: rest) s w) (k.run j₀ (a :: rest₀) s₀ w₀) := by
  have hheard : (Turn.mk a s w r s' w).heard = [] := Turn.heard_eq (List.append_nil _).symm
  have hheard₀ : (Turn.mk a s₀ w₀ r s₀' w₀).heard = [] := Turn.heard_eq (List.append_nil _).symm
  rw [Standard.run_of_act rest hp, Standard.run_of_act rest₀ hq]
  exact h.after ha rfl (by rw [hheard, hheard₀, List.map_nil])

theorem asked {r r₀ : Except Error (Response α)} {root root₀ : HandlerRef} {size size₀ : Nat}
    {e e₀ : Event α} {answer answer₀ : Bool} {told told₀ : List (Heard α)} (ha : shared a)
    (hp : k.act j.observers a s w =
      some (r, s', w.judged root size (.asked e answer :: told)))
    (hq : k.act j₀.observers a s₀ w₀ =
      some (r₀, s₀', w₀.judged root₀ size₀ (.asked e₀ answer₀ :: told₀)))
    (hr : r = r₀) (hheard : Heard.asked e answer :: told = (Heard.asked e₀ answer₀ :: told₀).map tr)
    (h : Agrees shared tr alike
      (k.run j rest s' (w.judged root size (.asked e answer :: told)))
      (k.run j₀ rest₀ s₀' (w₀.judged root₀ size₀ (.asked e₀ answer₀ :: told₀)))) :
    Agrees shared tr alike (k.run j (a :: rest) s w) (k.run j₀ (a :: rest₀) s₀ w₀) := by
  rw [Standard.run_of_act rest hp, Standard.run_of_act rest₀ hq]
  exact h.after ha hr (by rw [Turn.heard_eq rfl, Turn.heard_eq rfl, hheard])

/-- **A command that both sides serve alike**: they are asked once, and by the answer, which is the
same, both make their mutation or neither does. -/
theorem command {command : Command α} {f f₀ : C → Except Error (Mutation C α)}
    {m m₀ : Mutation C α} (ha : shared (.command command)) (hs : k.Sound s w) (hs₀ : k.Sound s₀ w₀)
    (hf : k.mutation? s.frames command = some f) (hm : f s.container = .ok m)
    (hf₀ : k.mutation? s₀.frames command = some f₀) (hm₀ : f₀ s₀.container = .ok m₀)
    (hresponse : m.response = m₀.response)
    (hproposal : ∀ answer, .asked (s.seat.before m.proposal (k.size s.container)) answer =
      tr (.asked (s₀.seat.before m₀.proposal (k.size s₀.container)) answer))
    (hreports : s.seat.reports m.completion (k.size s.container) (k.size m.container) =
      (s₀.seat.reports m₀.completion (k.size s₀.container) (k.size m₀.container)).map tr)
    (hconcur : (k.run j (.command command :: rest) s w).Concur
      (k.run j₀ (.command command :: rest₀) s₀ w₀))
    (hrefused : ∀ w w₀, k.Sound s w → k.Sound s₀ w₀ →
      (k.run j rest s w).Concur (k.run j₀ rest₀ s₀ w₀) →
      Agrees shared tr alike (k.run j rest s w) (k.run j₀ rest₀ s₀ w₀))
    (haccepted : ∀ w w₀, k.Sound (k.afterward command s m.container) w →
      k.Sound (k.afterward command s₀ m₀.container) w₀ →
      (k.run j rest (k.afterward command s m.container) w).Concur
        (k.run j₀ rest₀ (k.afterward command s₀ m₀.container) w₀) →
      Agrees shared tr alike (k.run j rest (k.afterward command s m.container) w)
        (k.run j₀ rest₀ (k.afterward command s₀ m₀.container) w₀)) :
    Agrees shared tr alike (k.run j (.command command :: rest) s w)
      (k.run j₀ (.command command :: rest₀) s₀ w₀) := by
  have hp := Standard.act_mutation (j := j) hs hf hm
  have hq := Standard.act_mutation (j := j₀) hs₀ hf₀ hm₀
  have hsame := hconcur.head (Standard.head?_answers hs hf hm)
    (Standard.head?_answers hs₀ hf₀ hm₀)
  dsimp only at hp hq
  rw [← hsame] at hq
  cases hd : j w.outside (s.seat.before m.proposal (k.size s.container)) with
  | false =>
    rw [hd, if_neg (by simp)] at hp hq
    refine asked ha hp hq rfl (by rw [hproposal]; rfl) ?_
    exact hrefused _ _ ((hs.step hp).sound hs) ((hs₀.step hq).sound hs₀)
      (hconcur.asked rfl rfl hp hq)
  | true =>
    rw [hd, if_pos rfl] at hp hq
    refine asked ha hp hq (congrArg Except.ok hresponse) (by rw [hproposal, hreports]; rfl) ?_
    exact haccepted _ _ ((hs.step hp).sound hs) ((hs₀.step hq).sound hs₀)
      (hconcur.asked (Seat.answers_reports ..) (Seat.answers_reports ..) hp hq)

end Course.Agrees

end WatchedContainers
