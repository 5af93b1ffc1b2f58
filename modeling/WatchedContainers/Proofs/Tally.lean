import WatchedContainers.Proofs.Counting
import WatchedContainers.Proofs.Strictness

/-!
# Bags are proper tallies

A tally that starts as a bag does what the bag does.  So it is never asked to take from a count that
stands at 0, and none of its counts comes to stand there: it is always a proper tally.

* `Session.act_tally`: every action is the same on a tally.
* `Standard.run_counts`: **tallies stay proper**, and copies are counted as they are added and taken
  away.
-/

namespace WatchedContainers

variable {ρ σ α : Type} [Ord α] [Std.TransOrd α]

namespace Tally

variable (b : CountedBag α)

omit [Std.TransOrd α] in
theorem entry?_ofBag (v : α) : Tally.entry? (ofBag b) v = b.entry? v := rfl

/-- A bag has something to take from under every element it lists. -/
theorem remove_ofBag (v : α) :
    Collection.remove (ofBag b) v =
      ((Collection.remove b v).1, ofBag (Collection.remove b v).2) := by
  show (ofBag b).remove v = ((b.remove v).1, ofBag (b.remove v).2)
  unfold remove CountedBag.remove
  rw [entry?_ofBag]
  cases hp : b.entry? v with
  | none => rfl
  | some p =>
    have hpos : p.2 ≠ 0 := Nat.ne_of_gt (b.positive p (List.mem_of_find?_eq_some hp))
    show (if p.2 = 0 then _ else _) = _
    rw [if_neg hpos]
    rfl

theorem addCopies_ofBag (v : α) (n : Nat) :
    Counted.addCopies (ofBag b) v n =
      ((Counted.addCopies b v n).1, ofBag (Counted.addCopies b v n).2) := by
  show (ofBag b).addCopies v n = ((b.addCopies v n).1, ofBag (b.addCopies v n).2)
  unfold addCopies CountedBag.addCopies
  by_cases hn : 0 < n
  · rw [if_pos hn, dif_pos hn]
    rfl
  · rw [if_neg hn, dif_neg hn]
    rfl

theorem removeCopies_ofBag (v : α) (n : Nat) :
    Counted.removeCopies (ofBag b) v n =
      ((Counted.removeCopies b v n).1, ofBag (Counted.removeCopies b v n).2) := by
  show (ofBag b).removeCopies v n = ((b.removeCopies v n).1, ofBag (b.removeCopies v n).2)
  unfold removeCopies CountedBag.removeCopies
  rw [entry?_ofBag]
  cases b.entry? v <;> rfl

theorem addAll_ofBag (vs : List α) :
    Collection.addAll (ofBag b) vs =
      ((Collection.addAll b vs).1, ofBag (Collection.addAll b vs).2) := by
  show addEach Collection.add (ofBag b) vs =
    ((addEach Collection.add b vs).1, ofBag (addEach Collection.add b vs).2)
  unfold addEach
  generalize false = changed
  induction vs generalizing b changed with
  | nil => rfl
  | cons v vs ih => exact ih (Collection.add b v).2 _

theorem take_ofBag (cur : CopyCursor α) :
    Traversal.remove cur (ofBag b) = ((Traversal.remove cur b).1, (Traversal.remove cur b).2.1,
      ofBag (Traversal.remove cur b).2.2) := by
  obtain ⟨items, next, produced⟩ := cur
  cases produced with
  | none => rfl
  | some v =>
    show (((ofBag b).remove v).1, _, ((ofBag b).remove v).2) = _
    rw [show (ofBag b).remove v = _ from remove_ofBag b v]
    rfl

end Tally

/-! ### Operations -/

open Tally (ofBag)

namespace CountedBag

variable [BEq α] (b : CountedBag α)

theorem operation_tally (command : Command α) :
    Option.Rel (fun op op' => op.Carried ofBag op' b) (Collection.operation? command)
      (Collection.operation? command) := by
  cases command with
  | remove v =>
    have hremove : (Collection.planRemove v).Carried ofBag (Collection.planRemove v) b := by
      simp only [Operation.Carried, Collection.planRemove, Tally.remove_ofBag]
      rfl
    exact hremove.some_answering
  | addAll vs =>
    have hadd : (Collection.planAddAll vs).Carried ofBag (Collection.planAddAll vs) b := by
      simp only [Operation.Carried, Collection.planAddAll, Tally.addAll_ofBag]
      rfl
    exact hadd.some_answering
  | add v => exact .some rfl
  | removeAll vs => exact .some rfl
  | retainAll vs => exact .some rfl
  | clear => exact .some rfl
  | _ => exact .none

omit [BEq α] in
theorem counted_tally (command : Command α) :
    Option.Rel (fun op op' => op.Carried ofBag op' b) (Counted.operation? command)
      (Counted.operation? command) := by
  cases command with
  | addCopies v n =>
    have hadd : (Counted.planAddCopies v n).Carried ofBag (Counted.planAddCopies v n) b := by
      simp only [Operation.Carried, Counted.planAddCopies, Tally.addCopies_ofBag]
      rfl
    exact hadd.some_answering
  | removeCopies v n =>
    have hremove :
        (Counted.planRemoveCopies v n).Carried ofBag (Counted.planRemoveCopies v n) b := by
      simp only [Operation.Carried, Counted.planRemoveCopies, Tally.removeCopies_ofBag]
      rfl
    exact hremove.some_answering
  | _ => exact .none

end CountedBag

namespace Iteration

def tally (it : Iteration (CountedBag α) (CopyCursor α) α) :
    Iteration (Tally α) (CopyCursor α) α :=
  it.over (ofBag it.container)

theorem planRemove_tally (it : Iteration (CountedBag α) (CopyCursor α) α) :
    planRemove.Carried tally planRemove it := by
  obtain ⟨b, cursor, size, nextIndex, current⟩ := it
  cases current with
  | none => rfl
  | some p =>
    simp only [Operation.Carried, planRemove, tally, Iteration.over, Tally.take_ofBag]
    rcases Traversal.remove cursor b with ⟨_ | v, cursor', b'⟩
    · rfl
    · rfl

theorem operation_tally (it : Iteration (CountedBag α) (CopyCursor α) α) (command : Command α) :
    Option.Rel (fun op op' => op.Carried tally op' it) (operation? command)
      (operation? command) := by
  cases command with
  | removeLast => exact (planRemove_tally it).some_answering
  | _ => exact .none

omit [Std.TransOrd α] in
theorem next_tally (it : Iteration (CountedBag α) (CopyCursor α) α) :
    it.tally.next = (it.next.1, it.next.2.tally) := by
  have hnext : Traversal.next it.tally.cursor it.tally.container =
      Traversal.next it.cursor it.container := rfl
  unfold next
  rw [hnext]
  rcases Traversal.next it.cursor it.container with ⟨_ | v, cursor⟩
  · rfl
  · rfl

end Iteration

/-! ### Sessions -/

namespace Session

variable [BEq α] (s : Session (CountedBag α) (CopyCursor α) α)

abbrev tally : Session (Tally α) (CopyCursor α) α := s.map ofBag

abbrev bagFamily (C : Type) [inst : Counted C α] : Family C (CopyCursor α) α := .bag inst

omit [Std.TransOrd α] [BEq α] in
theorem handler_tally : s.tally.handler = s.handler := by
  obtain ⟨root, frames⟩ := s
  cases frames <;> rfl

theorem rootOperation?_tally (command : Command α) :
    Option.Rel (fun op op' => op.Carried tally op' s)
      (rootOperation? (bagFamily (CountedBag α)) command)
      (rootOperation? (bagFamily (Tally α)) command) := by
  have hcollection : Option.Rel (fun op op' => op.Carried tally op' s)
      ((Collection.operation? command).map onContainer)
      ((Collection.operation? command).map onContainer) := by
    refine Operation.Carried.map_on (g := tally) (f := ofBag) ?_ ?_ ?_ id
    · exact s.container.operation_tally command
    · rfl
    · exact fun _ => rfl
  have hcounted : Option.Rel (fun op op' => op.Carried tally op' s)
      ((Counted.operation? command).map onContainer)
      ((Counted.operation? command).map onContainer) := by
    refine Operation.Carried.map_on (g := tally) (f := ofBag) ?_ ?_ ?_ id
    · exact s.container.counted_tally command
    · rfl
    · exact fun _ => rfl
  cases command with
  | add | addAll | remove | removeAll | retainAll | clear => exact hcollection
  | _ => exact hcounted

/-- **Every command at what is in front** is the same on a tally. -/
theorem operation?_tally (command : Command α) :
    Option.Rel (fun op op' => op.Carried tally op' s)
      (s.operation? (bagFamily (CountedBag α)) command)
      (s.tally.operation? (bagFamily (Tally α)) command) := by
  obtain ⟨root, frames⟩ := s
  cases frames with
  | nil => exact rootOperation?_tally ⟨root, []⟩ command
  | cons f rest =>
    cases f with
    | subList v => exact .none
    | sortedView v => exact .none
    | listIterator it h => exact .none
    | iteration it h =>
      refine Operation.Carried.map_on (g := tally) (f := Iteration.tally) ?_ ?_ ?_ id
      · exact Iteration.operation_tally (it.over root.inner) command
      · rfl
      · exact fun _ => rfl

theorem answer?_tally (q : Query α) :
    s.tally.answer? (bagFamily (Tally α)) q = s.answer? (bagFamily (CountedBag α)) q := by
  obtain ⟨root, frames⟩ := s
  cases frames with
  | nil => cases q <;> rfl
  | cons f rest => cases f <;> cases q <;> rfl

omit [BEq α] in
theorem move?_tally (m : Move) :
    s.tally.move? (bagFamily (Tally α)) m =
      (s.move? (bagFamily (CountedBag α)) m).map fun x => (x.1, x.2.tally) := by
  obtain ⟨root, frames⟩ := s
  cases frames with
  | nil => cases m <;> rfl
  | cons f rest =>
    cases f with
    | subList v => cases m <;> rfl
    | sortedView v => cases m <;> rfl
    | listIterator it h => cases m <;> rfl
    | iteration it h =>
      cases m with
      | next =>
        have hnext := (it.over root.inner).next_tally
        exact congrArg (fun x : Option α × Iteration (Tally α) (CopyCursor α) α =>
          some (x.1, (⟨root.map ofBag, .iteration (x.2.over ()) h :: rest⟩ : Session _ _ _))) hnext
      | previous => rfl

omit [BEq α] in
theorem open?_tally (obs : Observers ρ σ α) (o : Opening α) (w : World ρ σ) :
    s.tally.open? obs (bagFamily (Tally α)) o w =
      s.open? obs (bagFamily (CountedBag α)) o w := by
  obtain ⟨root, frames⟩ := s
  cases o with
  | iteration =>
    cases frames with
    | nil => rfl
    | cons f rest => cases f <;> rfl
  | _ => rfl

/-- **Every action is the same on a tally**, which it never breaks. -/
theorem act_tally [ObjectIdentity α] (obs : Observers ρ σ α) (a : Action α) (w : World ρ σ) :
    s.tally.act obs (bagFamily (Tally α)) a w =
      (s.act obs (bagFamily (CountedBag α)) a w).map fun x => (x.1, x.2.1.tally, x.2.2) := by
  cases a with
  | command command =>
    have hop := s.operation?_tally command
    simp only [act, handler_tally]
    revert hop
    generalize s.operation? (bagFamily (CountedBag α)) command = o
    generalize s.tally.operation? (bagFamily (Tally α)) command = o'
    intro hop
    cases hop with
    | none => rfl
    | some h =>
      exact congrArg some (h.perform (fun _ => rfl) (fun _ => rfl) obs s.handler w)
  | query q =>
    simp only [act, answer?_tally, Option.map_map]
    rfl
  | move m =>
    simp only [act, move?_tally, Option.map_map]
    rfl
  | openFrame o =>
    simp only [act, open?_tally, Option.map_map]
    refine congrArg (Option.map · (s.open? obs (bagFamily (CountedBag α)) o w))
      (funext fun x => ?_)
    rcases x with ⟨e | f, w₁⟩
    · rfl
    · rfl
  | close =>
    obtain ⟨root, frames⟩ := s
    cases frames <;> rfl

end Session

/-! ### Plays and runs -/

namespace Standard

variable [BEq α] [ObjectIdentity α]

theorem play_tally (obs : Observers ρ σ α) (actions : List (Action α))
    (s : Session (CountedBag α) (CopyCursor α) α) (w : World ρ σ) :
    Session.play obs (Session.bagFamily (Tally α)) actions s.tally w =
      (bag.play obs actions s w).map ofBag := by
  induction actions generalizing s w with
  | nil => rfl
  | cons a rest ih =>
    have hact := s.act_tally obs a w
    have hsame : s.act obs (Session.bagFamily (CountedBag α)) a w = bag.act obs a s w := rfl
    rw [hsame] at hact
    rw [play_cons, Session.play, hact]
    cases bag.act obs a s w with
    | none => exact ih s w
    | some x => exact congrArg (Play.after · x.1) (ih x.2.1 x.2.2)

omit [Std.TransOrd α] [BEq α] [Ord α] in
/-- A recorded run is a play whose turns are kept. -/
theorem recordedRun_eq_play {C κ : Type} (k : Standard α C κ) (obs : Observers ρ σ α)
    (actions : List (Action α)) (s : Session C κ α) (w : RecordedWorld ρ σ α) :
    (k.recordedRun obs actions s w).responses = (k.play obs.recording actions s w).responses ∧
      (k.recordedRun obs actions s w).session = (k.play obs.recording actions s w).session := by
  induction actions generalizing s w with
  | nil => exact ⟨rfl, rfl⟩
  | cons a rest ih =>
    rw [play_cons, recordedRun]
    cases k.act obs.recording a s w with
    | none => exact ih s w
    | some x =>
      obtain ⟨hresponses, hsession⟩ := ih x.2.1 x.2.2
      exact ⟨congrArg (x.1 :: ·) hresponses, hsession⟩

/-! ### Turns -/

section Turns

variable {t : Turn (CountedBag α) (CopyCursor α) α} {command : Command α}

abbrev bagMutation? (command : Command α) : Option (CountedBag α → Mutation (CountedBag α) α) :=
  (Collection.mutation? command).or (Counted.mutation? command)

omit [ObjectIdentity α] in
/-- Apart from the removal at an iterator, the commands of a bag are those at its root. -/
theorem mutation?_bag {frames : List (Frame (CopyCursor α) α)} (hcommand : command ≠ .removeLast)
    {f : CountedBag α → Except Error (Mutation (CountedBag α) α)}
    (hf : bag.mutation? frames command = some f) :
    (bagMutation? command).map (fun g b => .ok (g b)) = some f := by
  cases frames with
  | nil => exact hf
  | cons g rest =>
    cases g with
    | subList v => cases hf
    | sortedView v => cases hf
    | listIterator it h => cases hf
    | iteration it h =>
      cases command with
      | removeLast => exact absurd rfl hcommand
      | _ => cases hf

/-- A command at the root of a bag is vetoed, or accepted and reported. -/
theorem Resembles.decided (h : bag.Resembles t) (ht : t.action = .command command)
    (hcommand : command ≠ .removeLast) (hrefusal : command.refusal = .flag false)
    {g : CountedBag α → Mutation (CountedBag α) α} (hg : bagMutation? command = some g)
    (hfound : (g t.before.container).completion.absent? = none) :
    t.Vetoed ∨ t.after.container = (g t.before.container).container ∧
      ∀ answer, (g t.before.container).response = .flag answer → t.Accepted answer := by
  obtain ⟨a, s, w, r, s', w'⟩ := t
  obtain ⟨j, w₀, hstep, hheard⟩ := h.exists_step
  obtain rfl : a = .command command := ht
  simp only at hstep hheard hfound ⊢
  have hmutation : ∀ f, bag.mutation? s.frames command = some f →
      f = fun b => .ok (g b) := by
    intro f hf
    have hroot := mutation?_bag hcommand hf
    rw [hg] at hroot
    exact (Option.some.inj hroot).symm
  cases hstep with
  | failed _ f e hf he =>
    rw [hmutation f hf] at he
    cases he
  | refused _ f m hf hm hj =>
    left
    refine ⟨⟨_, hheard _ rfl⟩, ?_, rfl⟩
    rw [hrefusal]
  | accepted _ f m hf hm hj =>
    right
    rw [hmutation f hf] at hm
    obtain rfl := Except.ok.inj hm
    refine ⟨rfl, fun answer hanswer => ⟨?_, congrArg Except.ok hanswer⟩⟩
    have hcalls := hheard _ rfl
    rw [Seat.reports, hfound] at hcalls
    exact ⟨_, _, hcalls, rfl, rfl, rfl⟩

/-- A filter of a bag tells whether something is counted less often. -/
theorem Resembles.retained (h : bag.Resembles t) (ht : t.action = .command command)
    (hcommand : command ≠ .removeLast) (hrefusal : command.refusal = .flag false)
    {proposal : Modification α} {completion : Bool → Completion α} {keep : α → Bool}
    (hg : bagMutation? command = some (.retaining proposal completion keep))
    (hfound : ∀ changed, (completion changed).absent? = none) :
    t.Vetoed ∨ ∃ changed, t.Accepted changed ∧
      (changed = true ↔ ∃ v, t.after.container.count v < t.before.container.count v) ∧
      ∀ v, t.after.container.count v = t.before.container.count v ∨
        t.after.container.count v = 0 := by
  rcases h.decided ht hcommand hrefusal hg (hfound _) with hveto | ⟨hafter, haccepted⟩
  · exact .inl hveto
  · right
    rw [hafter]
    exact ⟨_, haccepted _ rfl, (Tally.proper_ofBag t.before.container).retain keep,
      CountedBag.countIn_filter t.before.container.ascending keep⟩

/-- **Every turn counts** as it should. -/
theorem Resembles.counts (h : bag.Resembles t) : t.Counts := by
  unfold Turn.Counts
  split
  next v n ht =>
    rcases h.decided ht nofun rfl rfl rfl with hveto | ⟨hafter, haccepted⟩
    · exact .inl hveto
    · right
      rw [hafter]
      exact ⟨haccepted _ rfl, t.before.container.recounts_addCopies v n,
        t.before.container.size_addCopies v n⟩
  next v n ht =>
    rcases h.decided ht nofun rfl rfl rfl with hveto | ⟨hafter, haccepted⟩
    · exact .inl hveto
    · right
      obtain ⟨hflag, hrecounts, hsize⟩ := t.before.container.removeCopies_eq v n
      rw [hafter]
      exact ⟨haccepted _ (congrArg Response.flag hflag), hrecounts, hsize⟩
  next vs ht => exact h.retained ht nofun rfl rfl fun _ => rfl
  next vs ht => exact h.retained ht nofun rfl rfl fun _ => rfl
  next => trivial

end Turns

/-! ### The result -/

/-- **Tallies stay proper.**  A bag is watched, and whatever is done with it and with its iterators,
among any parties: a tally in its place, which keeps no promise of its own, answers alike and ends
with the same counts.  It is never broken, which a single occurrence taken from a count of 0 would
do, and no count is 0 then.

Whatever discreet hooks the root has and whatever they veto, every turn that adds copies adds as
many to the count of that element, and every turn that takes copies away takes as many as there are.
The other counts stay, the events carry the sizes before and after, which differ by as much, and the
caller is told whether anything was taken.  What is told of a filter is whether an element is
counted less often. -/
theorem run_counts (obs : Observers ρ σ α) (c : Watched (CountedBag α)) (w : RecordedWorld ρ σ α)
    (actions : List (Action α)) :
    let course := bag.recordedRun obs actions c.session w
    let tally := Session.play obs.recording (.bag inferInstance) actions (c.map ofBag).session w
    tally.responses = course.responses ∧
      tally.session.container = ofBag course.session.container ∧
      tally.session.container.Proper ∧
      (obs.Discreet c.handler → w.shadow.Presides c.handler c.id →
        ∀ t ∈ course.turns, t.Counts) := by
  intro course tally
  have htally : tally = (bag.play obs.recording actions c.session w).map ofBag :=
    play_tally obs.recording actions c.session w
  obtain ⟨hresponses, hsession⟩ := bag.recordedRun_eq_play obs actions c.session w
  have hcontainer : tally.session.container = ofBag course.session.container := by
    rw [htally, show course.session = _ from hsession]
    rfl
  refine ⟨?_, hcontainer, ?_, ?_⟩
  · rw [htally, show course.responses = _ from hresponses]
    rfl
  · rw [hcontainer]
    exact Tally.proper_ofBag _
  · intro hd hc t ht
    have hlinks := links_recordedRun hd (bag.sound_session hc) actions
    exact (hlinks.turn ht).counts

/-- Copies of three elements are added and taken away, none and more than there are, and an iterator
takes the last occurrence of one.  The hooks veto what is done with another one. -/
theorem run_counts_to_none :
    let k : Standard Int (CountedBag Int) (CopyCursor Int) := .bag
    let obs : Observers Unit Unit Int :=
      ⟨fun _ e w => (e.subject? != some 9, w.freshId.2), fun _ _ w => w, fun _ => id, fun _ => id⟩
    let w : RecordedWorld Unit Unit Int :=
      { nextId := 2
        handlers := #[{ role := .root ⟨0⟩, binding := some ⟨⟨1⟩, k.capabilities⟩ }]
        hooks := #[.policy ()]
        outside := ((), []) }
    let c := Watched.alone (CountedBag.reporting false : CountedBag Int)
    let actions : List (Action Int) :=
      [.command (.addCopies 5 3), .command (.addCopies 4 0), .command (.add 3),
        .command (.addCopies 9 2), .openFrame .iteration, .move .next, .command .removeLast, .close,
        .command (.removeCopies 5 2), .command (.removeCopies 3 1), .command (.removeAll [4]),
        .command (.removeCopies 5 7)]
    let course := k.recordedRun obs actions c.session w
    let tally := Session.play obs.recording (.bag inferInstance) actions
      (c.map Tally.ofBag).session w
    tally.responses.map (·.toOption.map (·.affirms)) =
        [some false, some false, some true, some false, some false, some true, some true,
          some false, some true, some false, some false, some true] ∧
      course.reports.map (fun e => (e.preSize, e.postSize?)) =
        [(0, some 3), (3, some 3), (3, some 4), (4, some 3), (3, some 1), (1, some 1), (1, some 1),
          (1, some 0)] ∧
      tally.session.container.counts? = some [] ∧ tally.session.container.Proper ∧
      ∀ t ∈ course.turns, t.Counts := by
  intro k obs w c actions course tally
  have hd : obs.Discreet c.handler :=
    ⟨fun _ _ _ => .of_outside rfl rfl, fun _ _ _ => .of_outside rfl rfl⟩
  have hc : w.shadow.Presides c.handler c.id := World.Hosts.presides_shadow ⟨rfl, rfl, rfl⟩ rfl
  obtain ⟨hresponses, hcontainer, hproper, hcounts⟩ := run_counts obs c w actions
  refine ⟨?_, by decide +kernel, ?_, hproper, hcounts hd hc⟩
  · rw [show tally.responses = _ from hresponses]
    decide +kernel
  · rw [show tally.session.container = _ from hcontainer]
    decide +kernel

end Standard

end WatchedContainers
