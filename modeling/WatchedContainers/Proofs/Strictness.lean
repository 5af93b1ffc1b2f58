import WatchedContainers.Proofs.Fitting
import WatchedContainers.Proofs.Nesting
import WatchedContainers.Proofs.Simulation

/-!
# Lists are used as they are meant to be

Whatever is open on a watched list, whatever the actions and their positions, and whatever the
handlers decide: no subtraction of positions goes below zero, no operation of the list is called at
a position it is not meant for, and an accepted change finds the element it reports.

* `Operation.Carried`: an operation on a strict list is the one on the list, carried over.
* `Standard.Fits.act_strict`: **every action is the same on a strict list**, which it never breaks.
* `Standard.Fits.exact`: **every subtraction is exact**.
* `Standard.play_strict`: all this of every play.
-/

namespace WatchedContainers

variable {ρ σ α : Type}

/-! ### Strict lists that are not broken -/

namespace StrictList

variable {s : Sequence α} {i j : Nat}

@[simp] theorem size_ofSequence [BEq α] :
    Collection.size (ofSequence s) = s.items.length := rfl

@[simp] theorem get?_ofSequence : Positional.get? (ofSequence s) i = s.items[i]? := rfl

theorem change_of_allowed {allowed : Bool} (h : allowed = true) (f : List α → List α) :
    (ofSequence s).change allowed f = ofSequence ⟨f s.items⟩ := by
  rw [change, if_pos h]
  rfl

theorem insertAt_ofSequence (h : i ≤ s.items.length) (v : α) :
    Positional.insertAt (ofSequence s) i v = ofSequence (Positional.insertAt s i v) :=
  change_of_allowed (decide_eq_true h) _

theorem insertAllAt_ofSequence (h : i ≤ s.items.length) (vs : List α) :
    Positional.insertAllAt (ofSequence s) i vs =
      ((Positional.insertAllAt s i vs).1, ofSequence (Positional.insertAllAt s i vs).2) :=
  congrArg ((!vs.isEmpty), ·) (change_of_allowed (decide_eq_true h) _)

theorem erase_ofSequence (h : i < s.items.length) :
    (ofSequence s).erase i = ofSequence ⟨s.items.eraseIdx i⟩ :=
  change_of_allowed (decide_eq_true h) _

theorem removeAt_ofSequence (h : i < s.items.length) :
    Positional.removeAt (ofSequence s) i =
      ((Positional.removeAt s i).1, ofSequence (Positional.removeAt s i).2) :=
  congrArg (s.items[i]?, ·) (erase_ofSequence h)

theorem setAt_ofSequence (h : i < s.items.length) (v : α) :
    Positional.setAt (ofSequence s) i v =
      ((Positional.setAt s i v).1, ofSequence (Positional.setAt s i v).2) :=
  congrArg (s.items[i]?, ·) (change_of_allowed (decide_eq_true h) _)

theorem removeRange_ofSequence (h : i ≤ j) (hj : j ≤ s.items.length) :
    Positional.removeRange (ofSequence s) i j = ofSequence (Positional.removeRange s i j) := by
  refine change_of_allowed ?_ _
  rw [Bool.and_eq_true]
  exact ⟨decide_eq_true h, decide_eq_true hj⟩

theorem remove_ofSequence [BEq α] (v : α) :
    Collection.remove (ofSequence s) v =
      ((Collection.remove s v).1, ofSequence (Collection.remove s v).2) := by
  cases hi : s.items.findIdx? (· == v) with
  | none =>
    have hi' : (ofSequence s).items.findIdx? (· == v) = none := hi
    simp only [Collection.remove, Sequence.remove, hi, hi']
  | some i =>
    have hi' : (ofSequence s).items.findIdx? (· == v) = some i := hi
    have hlt : i < s.items.length := (List.findIdx?_eq_some_iff_findIdx_eq.1 hi).1
    simp only [Collection.remove, Sequence.remove, hi, hi']
    exact congrArg (s.items[i]?, ·) (erase_ofSequence hlt)

end StrictList

/-! ### Operations carried over -/

def Plan.map {S T β : Type} (f : S → T) (p : Plan S α β) : Plan T α β :=
  ⟨p.proposal, p.size, p.refused, ⟨f p.commit.state, p.commit.report, p.commit.result⟩⟩

def Operation.Carried {S T β : Type} (f : S → T) (op : Operation S α β) (op' : Operation T α β)
    (s : S) : Prop :=
  op' (f s) = (op s).map (Plan.map f)

namespace Operation.Carried

variable {S S' T T' β γ : Type} {f : S → T} {g : S' → T'} {op : Operation S α β}
  {op' : Operation T α β} {s : S} {t : S'}

/-- An operation on a part is carried over with the part. -/
theorem on {part : S' → S} {part' : T' → T} {put : S' → S → S'} {put' : T' → T → T'}
    (h : op.Carried f op' (part t)) (hpart : part' (g t) = f (part t))
    (hput : ∀ x, put' (g t) (f x) = g (put t x)) (answer : β → γ) :
    (op.on part put answer).Carried g (op'.on part' put' answer) t := by
  unfold Operation.Carried Operation.on at *
  rw [hpart, h]
  cases op (part t) with
  | error e => rfl
  | ok plan =>
    refine congrArg Except.ok ?_
    simp only [Plan.lift, Plan.map, hput]

theorem some_answering (h : op.Carried f op' s) {answer : β → γ} :
    Option.Rel (fun op op' => op.Carried f op' s) (some (op.answering answer))
      (some (op'.answering answer)) :=
  .some (Carried.on (f := f) (g := f) h rfl (fun _ => rfl) answer)

theorem perform [ObjectIdentity α] [Noting S] [Noting T] (h : op.Carried f op' s)
    (hcalls : ∀ x, Noting.calls (f x) = Noting.calls x)
    (hsettle : ∀ x, Noting.settle (f x) = f (Noting.settle x)) (obs : Observers ρ σ α)
    (ref : HandlerRef) (w : World ρ σ) :
    WatchedContainers.perform obs ref op' (f s) w =
      ((WatchedContainers.perform obs ref op s w).1,
        f (WatchedContainers.perform obs ref op s w).2.1,
        (WatchedContainers.perform obs ref op s w).2.2) := by
  unfold WatchedContainers.perform
  rw [show op' (f s) = _ from h]
  cases op s with
  | error e => rfl
  | ok plan =>
    simp only [Except.map, Plan.map, hcalls, hsettle]
    rcases w.propose obs ref plan.proposal plan.size with ⟨e | accepted, w₁⟩
    · rfl
    cases accepted with
    | false => rfl
    | true =>
      cases hreport : plan.commit.report with
      | none => rfl
      | some report =>
        dsimp only
        rcases (w₁.collect obs (Noting.calls plan.commit.state)).conclude obs ref report.1
          report.2 with ⟨e | ⟨⟨⟩⟩, w₂⟩
        · rfl
        · rfl

theorem map_on {part : S' → S} {part' : T' → T} {put : S' → S → S'} {put' : T' → T → T'}
    {o : Option (Operation S α β)} {o' : Option (Operation T α β)}
    (h : Option.Rel (fun op op' => op.Carried f op' (part t)) o o')
    (hpart : part' (g t) = f (part t)) (hput : ∀ x, put' (g t) (f x) = g (put t x))
    (answer : β → γ) :
    Option.Rel (fun op op' => op.Carried g op' t) (o.map (Operation.on part put answer))
      (o'.map (Operation.on part' put' answer)) := by
  cases h with
  | none => exact .none
  | some h => exact .some (h.on hpart hput answer)

end Operation.Carried

/-! ### Segments -/

namespace Segment

def strict (x : Segment (Sequence α)) : Segment (StrictList α) :=
  ⟨.ofSequence x.list, x.start, x.tail⟩

variable (x : Segment (Sequence α))

@[simp] theorem list_strict : x.strict.list = .ofSequence x.list := rfl

@[simp] theorem start_strict : x.strict.start = x.start := rfl

@[simp] theorem tail_strict : x.strict.tail = x.tail := rfl

variable [BEq α]

@[simp] theorem length_strict : x.strict.length = x.length := rfl

@[simp] theorem position?_strict (v : α) : x.strict.position? v = x.position? v := rfl

open StrictList

theorem planAdd_strict (v : α) : (planAdd v).Carried strict (planAdd v) x := by
  have hin : x.list.items.length - x.tail ≤ x.list.items.length := Nat.sub_le ..
  simp only [Operation.Carried, planAdd, list_strict, tail_strict, size_ofSequence,
    insertAt_ofSequence hin, Sequence.size_eq, get?_ofSequence, Sequence.get?_eq]
  split <;> rfl

theorem planAddAll_strict (vs : List α) : (planAddAll vs).Carried strict (planAddAll vs) x := by
  have hin : x.list.items.length - x.tail ≤ x.list.items.length := Nat.sub_le ..
  simp only [Operation.Carried, planAddAll, list_strict, tail_strict, size_ofSequence,
    insertAllAt_ofSequence hin, Sequence.size_eq]
  rfl

/-- A position of a segment, seen in the list. -/
theorem start_add_lt {x : Segment (Sequence α)} {i : Nat} (hi : i < x.length) :
    x.start + i < x.list.items.length := by
  have hlength : x.length = x.list.items.length - x.start - x.tail := rfl
  omega

theorem lt_of_position? {x : Segment (Sequence α)} {v : α} {i : Nat}
    (h : x.position? v = some i) : i < x.length :=
  List.mem_range.1 (List.mem_of_find?_eq_some h)

theorem planRemove_strict (v : α) : (planRemove v).Carried strict (planRemove v) x := by
  simp only [Operation.Carried, planRemove, position?_strict]
  cases hi : x.position? v with
  | none => rfl
  | some i =>
    simp only [list_strict, start_strict, removeAt_ofSequence (start_add_lt (lt_of_position? hi))]
    rfl

omit [BEq α] in
/-- A sweep below the end of the list removes at positions of the list. -/
theorem sweep_strict (keep : α → Bool) (s : Sequence α) (start count : Nat)
    (h : start + count ≤ s.items.length) :
    sweep keep (ofSequence s) start count =
      ((sweep keep s start count).1, ofSequence (sweep keep s start count).2) := by
  induction count generalizing s with
  | zero => rfl
  | succ count ih =>
    have hlt : start + count < s.items.length := by omega
    have hget := List.getElem?_eq_getElem hlt
    simp only [sweep, get?_ofSequence, Sequence.get?_eq, hget]
    split
    · exact ih s (Nat.le_of_lt hlt)
    · have hlength : start + count ≤ (s.items.eraseIdx (start + count)).length := by
        rw [List.length_eraseIdx_of_lt hlt]
        omega
      rw [removeAt_ofSequence hlt]
      rw [ih (Positional.removeAt s (start + count)).2 hlength]

theorem retain_strict (keep : α → Bool) (h : x.start + x.tail ≤ x.list.items.length) :
    x.strict.retain keep = ((x.retain keep).1, ofSequence (x.retain keep).2) := by
  have hlength : x.length = x.list.items.length - x.start - x.tail := rfl
  exact sweep_strict keep x.list x.start x.length (by omega)

theorem planRemoveAll_strict (vs : List α) (h : x.start + x.tail ≤ x.list.items.length) :
    (planRemoveAll vs).Carried strict (planRemoveAll vs) x := by
  simp only [Operation.Carried, planRemoveAll, retain_strict _ _ h]
  rfl

theorem planRetainAll_strict (vs : List α) (h : x.start + x.tail ≤ x.list.items.length) :
    (planRetainAll vs).Carried strict (planRetainAll vs) x := by
  simp only [Operation.Carried, planRetainAll, retain_strict _ _ h]
  rfl

theorem planClear_strict (h : x.start + x.tail ≤ x.list.items.length) :
    planClear.Carried strict planClear x := by
  have hlength : x.length = x.list.items.length - x.start - x.tail := rfl
  have hstop : x.start + x.length ≤ x.list.items.length := by omega
  simp only [Operation.Carried, planClear, list_strict, start_strict, length_strict,
    removeRange_ofSequence (Nat.le_add_right ..) hstop]
  rfl

theorem start_add_le {i : Nat} (hi : i ≤ x.length) (h : x.start + x.tail ≤ x.list.items.length) :
    x.start + i ≤ x.list.items.length := by
  have hlength : x.length = x.list.items.length - x.start - x.tail := rfl
  omega

theorem planAddAt_strict (i : Nat) (v : α) (h : x.start + x.tail ≤ x.list.items.length) :
    (planAddAt i v).Carried strict (planAddAt i v) x := by
  unfold Operation.Carried planAddAt checkInsert
  rw [length_strict]
  by_cases hi : i > x.length
  · rw [if_pos hi]
    rfl
  · rw [if_neg hi]
    have hin := start_add_le x (Nat.not_lt.1 hi) h
    have hget : (x.list.items.insertIdx (x.start + i) v)[x.start + i]? = some v := by
      rw [List.getElem?_insertIdx_self, if_pos hin]
    simp only [list_strict, start_strict, insertAt_ofSequence hin, Sequence.insertAt_eq,
      get?_ofSequence, Sequence.get?_eq, hget]
    rfl

theorem planAddAllAt_strict (i : Nat) (vs : List α) (h : x.start + x.tail ≤ x.list.items.length) :
    (planAddAllAt i vs).Carried strict (planAddAllAt i vs) x := by
  unfold Operation.Carried planAddAllAt checkInsert
  rw [length_strict]
  by_cases hi : i > x.length
  · rw [if_pos hi]
    rfl
  · rw [if_neg hi]
    have hin := start_add_le x (Nat.not_lt.1 hi) h
    simp only [list_strict, start_strict, insertAllAt_ofSequence hin]
    rfl

theorem planRemoveAt_strict (i : Nat) : (planRemoveAt i).Carried strict (planRemoveAt i) x := by
  unfold Operation.Carried planRemoveAt check
  rw [length_strict]
  by_cases hi : i ≥ x.length
  · rw [if_pos hi]
    rfl
  · rw [if_neg hi]
    have hlt := start_add_lt (Nat.not_le.1 hi)
    have hget := List.getElem?_eq_getElem hlt
    simp only [list_strict, start_strict, removeAt_ofSequence hlt, Sequence.removeAt_eq, hget]
    rfl

theorem planSet_strict (i : Nat) (v : α) : (planSet i v).Carried strict (planSet i v) x := by
  unfold Operation.Carried planSet check
  rw [length_strict]
  by_cases hi : i ≥ x.length
  · rw [if_pos hi]
    rfl
  · rw [if_neg hi]
    have hlt := start_add_lt (Nat.not_le.1 hi)
    have hget := List.getElem?_eq_getElem hlt
    have hset : (x.list.items.set (x.start + i) v)[x.start + i]? = some v :=
      List.getElem?_set_self hlt
    simp only [list_strict, start_strict, setAt_ofSequence hlt, Sequence.setAt_eq, get?_ofSequence,
      Sequence.get?_eq, hset, hget]
    rfl

/-- **Every command at a segment** is the same on a strict list. -/
theorem operation_strict (h : x.start + x.tail ≤ x.list.items.length) (command : Command α) :
    Option.Rel (fun op op' => op.Carried strict op' x) (operation? command)
      (operation? command) := by
  cases command with
  | add v => exact (planAdd_strict x v).some_answering
  | addAll vs => exact (planAddAll_strict x vs).some_answering
  | remove v => exact (planRemove_strict x v).some_answering
  | removeAll vs => exact (planRemoveAll_strict x vs h).some_answering
  | retainAll vs => exact (planRetainAll_strict x vs h).some_answering
  | clear => exact (planClear_strict x h).some_answering
  | addAt i v => exact (planAddAt_strict x i v h).some_answering
  | addAllAt i vs => exact (planAddAllAt_strict x i vs h).some_answering
  | removeAt i => exact (planRemoveAt_strict x i).some_answering
  | set i v => exact (planSet_strict x i v).some_answering
  | _ => exact .none

end Segment

/-! ### Iterators -/

namespace ListIterator

def strict (it : ListIterator (Sequence α)) : ListIterator (StrictList α) :=
  ⟨it.segment.strict, it.cursor, it.last⟩

open StrictList

variable [BEq α] (it : ListIterator (Sequence α))

theorem planRemove_strict : planRemove.Carried strict planRemove it := by
  obtain ⟨⟨list, start, tail⟩, cursor, last⟩ := it
  cases last with
  | none => rfl
  | some i =>
    cases hget : list.items[start + i]? with
    | none =>
      simp only [Operation.Carried, planRemove, strict, Segment.strict, elementAt, get?_ofSequence,
        Sequence.get?_eq, hget]
      rfl
    | some v =>
      obtain ⟨hlt, -⟩ := List.getElem?_eq_some_iff.1 hget
      simp only [Operation.Carried, planRemove, strict, Segment.strict, elementAt, get?_ofSequence,
        Sequence.get?_eq, hget, removeAt_ofSequence hlt, Sequence.removeAt_eq]
      rfl

theorem planSet_strict (v : α) (hr : InRange it.cursor it.last it.segment.length) :
    (planSet v).Carried strict (planSet v) it := by
  obtain ⟨segment, cursor, last⟩ := it
  cases last with
  | none => rfl
  | some i =>
    have hlt := Segment.start_add_lt (hr.last_lt i rfl)
    have hget := List.getElem?_eq_getElem hlt
    have hset : (segment.list.items.set (segment.start + i) v)[segment.start + i]? = some v :=
      List.getElem?_set_self hlt
    simp only [Operation.Carried, planSet, strict, Segment.list_strict, Segment.start_strict,
      setAt_ofSequence hlt, Sequence.setAt_eq, get?_ofSequence, Sequence.get?_eq, hset, hget]
    rfl

theorem planAdd_strict (v : α)
    (h : it.segment.start + it.segment.tail ≤ it.segment.list.items.length)
    (hr : InRange it.cursor it.last it.segment.length) :
    (planAdd v).Carried strict (planAdd v) it := by
  obtain ⟨segment, cursor, last⟩ := it
  have hin : segment.start + cursor ≤ segment.list.items.length :=
    Segment.start_add_le segment hr.cursor_le h
  have hget : (segment.list.items.insertIdx (segment.start + cursor) v)[segment.start + cursor]? =
      some v := by
    rw [List.getElem?_insertIdx_self, if_pos hin]
  simp only [Operation.Carried, planAdd, strict, Segment.list_strict, Segment.start_strict,
    insertAt_ofSequence hin, Sequence.insertAt_eq, get?_ofSequence, Sequence.get?_eq, hget]
  rfl

/-- **Every command at a list iterator** is the same on a strict list. -/
theorem operation_strict (h : it.segment.start + it.segment.tail ≤ it.segment.list.items.length)
    (hr : InRange it.cursor it.last it.segment.length) (command : Command α) :
    Option.Rel (fun op op' => op.Carried strict op' it) (operation? command)
      (operation? command) := by
  cases command with
  | removeLast => exact (planRemove_strict it).some_answering
  | setLast v => exact (planSet_strict it v hr).some_answering
  | insert v => exact (planAdd_strict it v h hr).some_answering
  | _ => exact .none

omit it in
theorem next_strict (it : ListIterator (Sequence α)) :
    it.strict.next = (it.next.1, it.next.2.strict) := by
  have hnext : it.strict.hasNext = it.hasNext := rfl
  unfold next
  rw [hnext]
  split <;> rfl

omit [BEq α] in
theorem previous_strict (it : ListIterator (Sequence α)) :
    it.strict.previous = (it.previous.1, it.previous.2.strict) := by
  have hprevious : it.strict.previousIndex? = it.previousIndex? := rfl
  unfold previous
  rw [hprevious]
  cases it.previousIndex? <;> rfl

end ListIterator

namespace Iteration

def strict (it : Iteration (Sequence α) PositionCursor α) :
    Iteration (StrictList α) PositionCursor α :=
  it.over (.ofSequence it.container)

/-- A removal is the same on a strict list, as the cursor stands on an element of the list. -/
theorem planRemove_strict [BEq α] (it : Iteration (Sequence α) PositionCursor α)
    (h : Standard.sequence.InStep it.container it) : planRemove.Carried strict planRemove it := by
  obtain ⟨⟨items⟩, cursor, size, nextIndex, current⟩ := it
  cases current with
  | none => rfl
  | some p =>
    obtain ⟨i, v⟩ := p
    have hwalks : PositionCursor.InStep items cursor nextIndex (some (i, v)) := h.walks
    obtain ⟨hv, hrelease, -⟩ := hwalks.release
    obtain ⟨hlt, -⟩ := List.getElem?_eq_some_iff.1 hv
    have herase := StrictList.erase_ofSequence (s := ⟨items⟩) hlt
    simp only [Operation.Carried, planRemove, strict, Iteration.over, Traversal.remove, hrelease, hv,
      herase]
    have hitems : (StrictList.ofSequence (⟨items⟩ : Sequence α)).items[i]? = some v := hv
    rw [hitems]
    rfl

theorem operation_strict [BEq α] (it : Iteration (Sequence α) PositionCursor α)
    (h : Standard.sequence.InStep it.container it) (command : Command α) :
    Option.Rel (fun op op' => op.Carried strict op' it) (operation? command)
      (operation? command) := by
  cases command with
  | removeLast => exact (planRemove_strict it h).some_answering
  | _ => exact .none

theorem next_strict (it : Iteration (Sequence α) PositionCursor α) :
    it.strict.next = (it.next.1, it.next.2.strict) := by
  have hnext : Traversal.next it.strict.cursor it.strict.container =
      Traversal.next it.cursor it.container := rfl
  unfold next
  rw [hnext]
  rcases Traversal.next it.cursor it.container with ⟨_ | v, cursor⟩
  · rfl
  · rfl

end Iteration

/-! ### The whole list -/

namespace Sequence

open StrictList

variable [BEq α] (s : Sequence α)

theorem operation_strict (command : Command α) :
    Option.Rel (fun op op' => op.Carried ofSequence op' s) (Collection.operation? command)
      (Collection.operation? command) := by
  cases command with
  | remove v =>
    have hremove : (Collection.planRemove v).Carried ofSequence (Collection.planRemove v) s := by
      simp only [Operation.Carried, Collection.planRemove, remove_ofSequence]
      rfl
    exact hremove.some_answering
  | add v => exact .some rfl
  | addAll vs => exact .some rfl
  | removeAll vs => exact .some rfl
  | retainAll vs => exact .some rfl
  | clear => exact .some rfl
  | _ => exact .none

end Sequence

/-! ### Sub-lists -/

def SubList.strict (v : SubList (Sequence α)) : SubList (StrictList α) :=
  ⟨v.segment.strict, v.handler, v.id⟩

/-- Opening a sub-list asks for the length of the list, and for no change of it. -/
theorem SubList.openIn_strict [BEq α] (obs : Observers ρ σ α) (h : HandlerRef)
    (x : Segment (Sequence α)) (start stop : Nat) (w : World ρ σ) :
    SubList.openIn obs h x.strict start stop w =
      ((SubList.openIn obs h x start stop w).1.map strict,
        (SubList.openIn obs h x start stop w).2) := by
  have hcaps : Collection.capabilities (StrictList α) = Collection.capabilities (Sequence α) := rfl
  unfold SubList.openIn
  rw [Segment.length_strict, hcaps]
  split
  · rfl
  · rcases w.makeRangeView obs h start stop with ⟨e | ref, w₁⟩
    · rfl
    · dsimp only
      rcases w₁.freshId.2.bind obs ref w₁.freshId.1 (Collection.capabilities (Sequence α)) with
        ⟨e | ⟨⟨⟩⟩, w₂⟩
      · rfl
      · rfl

/-! ### Sessions -/

namespace Session

open StrictList (ofSequence)

variable [BEq α] (s : Session (Sequence α) PositionCursor α)

omit [BEq α] in
theorem handler_strict : s.strict.handler = s.handler := by
  obtain ⟨root, frames⟩ := s
  cases frames <;> rfl

abbrev listFamily (C : Type) [inst : Positional C α] : Family C PositionCursor α := .list inst

theorem rootOperation?_strict (command : Command α) :
    Option.Rel (fun op op' => op.Carried strict op' s)
      (rootOperation? (listFamily (Sequence α)) command)
      (rootOperation? (listFamily (StrictList α)) command) := by
  have hcollection : Option.Rel (fun op op' => op.Carried strict op' s)
      ((Collection.operation? command).map onContainer)
      ((Collection.operation? command).map onContainer) := by
    refine Operation.Carried.map_on (g := strict) (f := ofSequence) ?_ ?_ ?_ id
    · exact s.container.operation_strict command
    · rfl
    · exact fun _ => rfl
  have hpositional : Option.Rel (fun op op' => op.Carried strict op' s)
      ((Segment.operation? command).map onWhole) ((Segment.operation? command).map onWhole) := by
    refine Operation.Carried.map_on (g := strict) (f := Segment.strict) ?_ ?_ ?_ id
    · exact Segment.operation_strict (.whole s.container) (Nat.zero_le _) command
    · rfl
    · exact fun _ => rfl
  cases command with
  | addAt | addAllAt | removeAt | set => exact hpositional
  | _ => exact hcollection

/-- **Every command at what is in front** is the same on a strict list. -/
theorem operation?_strict (hs : Standard.sequence.Fits s.container s.frames)
    (command : Command α) :
    Option.Rel (fun op op' => op.Carried strict op' s)
      (s.operation? (listFamily (Sequence α)) command)
      (s.strict.operation? (listFamily (StrictList α)) command) := by
  obtain ⟨root, frames⟩ := s
  cases frames with
  | nil => exact rootOperation?_strict ⟨root, []⟩ command
  | cons f rest =>
    cases f with
    | subList v =>
      have hsegment := Segment.operation_strict (v.segment.over root.inner) hs.inside command
      refine Operation.Carried.map_on (g := strict) (f := Segment.strict) ?_ ?_ ?_ id
      · exact hsegment
      · rfl
      · exact fun _ => rfl
    | sortedView v => exact .none
    | iteration it h =>
      have hit : Standard.sequence.InStep root.inner it := hs.front
      have hiteration := Iteration.operation_strict (it.over root.inner)
        (hit.of_fields rfl rfl rfl rfl) command
      refine Operation.Carried.map_on (g := strict) (f := Iteration.strict) ?_ ?_ ?_ id
      · exact hiteration
      · rfl
      · exact fun _ => rfl
    | listIterator it h =>
      have hiterator := ListIterator.operation_strict (it.over root.inner) hs.inside hs.front.2
        command
      refine Operation.Carried.map_on (g := strict) (f := ListIterator.strict) ?_ ?_ ?_ id
      · exact hiterator
      · rfl
      · exact fun _ => rfl

theorem answer?_strict (q : Query α) :
    s.strict.answer? (listFamily (StrictList α)) q = s.answer? (listFamily (Sequence α)) q := by
  obtain ⟨root, frames⟩ := s
  cases frames with
  | nil => cases q <;> rfl
  | cons f rest => cases f <;> cases q <;> rfl

theorem move?_strict (m : Move) :
    s.strict.move? (listFamily (StrictList α)) m =
      (s.move? (listFamily (Sequence α)) m).map fun x => (x.1, x.2.strict) := by
  obtain ⟨root, frames⟩ := s
  cases frames with
  | nil => cases m <;> rfl
  | cons f rest =>
    cases f with
    | subList v => cases m <;> rfl
    | sortedView v => cases m <;> rfl
    | iteration it h =>
      cases m with
      | next =>
        have hnext := (it.over root.inner).next_strict
        exact congrArg (fun x : Option α × Iteration (StrictList α) PositionCursor α =>
          some (x.1, (⟨root.strict, .iteration (x.2.over ()) h :: rest⟩ : Session _ _ _))) hnext
      | previous => rfl
    | listIterator it h =>
      cases m with
      | next =>
        have hnext := (it.over root.inner).next_strict
        exact congrArg (fun x : Option α × ListIterator (StrictList α) =>
          some (x.1, (⟨root.strict, .listIterator (x.2.over ()) h :: rest⟩ : Session _ _ _))) hnext
      | previous =>
        have hprevious := (it.over root.inner).previous_strict
        exact congrArg (fun x : Option α × ListIterator (StrictList α) =>
          some (x.1, (⟨root.strict, .listIterator (x.2.over ()) h :: rest⟩ : Session _ _ _)))
          hprevious

omit [BEq α] in
theorem segment?_strict : s.strict.segment? = s.segment?.map Segment.strict := by
  obtain ⟨root, frames⟩ := s
  cases frames with
  | nil => rfl
  | cons f rest => cases f <;> rfl

theorem open?_strict (obs : Observers ρ σ α) (o : Opening α) (w : World ρ σ) :
    s.strict.open? obs (listFamily (StrictList α)) o w =
      s.open? obs (listFamily (Sequence α)) o w := by
  cases o with
  | subList start stop =>
    simp only [open?, segment?_strict, Option.map_map, handler_strict]
    refine congrArg (Option.map · s.segment?) (funext fun x => ?_)
    rw [Function.comp_apply, SubList.openIn_strict]
    rcases SubList.openIn obs s.handler x start stop w with ⟨e | v, w₁⟩
    · rfl
    · rfl
  | range b => rfl
  | subSet start stop => rfl
  | iteration =>
    obtain ⟨root, frames⟩ := s
    cases frames with
    | nil => rfl
    | cons f rest => cases f <;> rfl
  | listIterator =>
    simp only [open?, segment?_strict, Option.map_map, handler_strict]
    rfl

/-- **Every action is the same on a strict list**, which it never breaks. -/
theorem act_strict [ObjectIdentity α] (hs : Standard.sequence.Fits s.container s.frames)
    (obs : Observers ρ σ α) (a : Action α) (w : World ρ σ) :
    s.strict.act obs (listFamily (StrictList α)) a w =
      (s.act obs (listFamily (Sequence α)) a w).map fun x => (x.1, x.2.1.strict, x.2.2) := by
  cases a with
  | command command =>
    have hop := s.operation?_strict hs command
    simp only [act, handler_strict]
    revert hop
    generalize s.operation? (listFamily (Sequence α)) command = o
    generalize s.strict.operation? (listFamily (StrictList α)) command = o'
    intro hop
    cases hop with
    | none => rfl
    | some h =>
      exact congrArg some (h.perform (fun _ => rfl) (fun _ => rfl) obs s.handler w)
  | query q =>
    simp only [act, answer?_strict, Option.map_map]
    rfl
  | move m =>
    simp only [act, move?_strict, Option.map_map]
    rfl
  | openFrame o =>
    simp only [act, open?_strict, Option.map_map]
    refine congrArg (Option.map · (s.open? obs (listFamily (Sequence α)) o w)) (funext fun x => ?_)
    rcases x with ⟨e | f, w₁⟩
    · rfl
    · rfl
  | close =>
    obtain ⟨root, frames⟩ := s
    cases frames <;> rfl

end Session

/-! ### Exact differences -/

theorem Segment.exact_differences [BEq α] {x : Segment (Sequence α)}
    (h : x.start + x.tail ≤ x.list.items.length) : ∀ d ∈ x.differences, d.Exact := by
  simp only [differences, Sequence.size_eq, List.forall_mem_cons, Difference.Exact]
  refine ⟨?_, ?_, ?_, by simp⟩
  · omega
  · omega
  · omega

/-- The differences of an iteration in step: the element produced last is one of the list, and the
cursor is behind it. -/
theorem Iteration.exact_differences [BEq α] {c : Sequence α}
    {it : Iteration Unit PositionCursor α} (h : Standard.sequence.InStep c it) :
    ∀ d ∈ it.differences, d.Exact := by
  have hwalks : it.cursor.InStep c.items it.nextIndex it.current := h.walks
  have hsize : it.size = c.items.length := h.size_eq
  unfold differences
  rw [hwalks.current_eq]
  cases hcurrent : it.current with
  | none => simp
  | some p =>
    obtain ⟨i, v⟩ := p
    obtain ⟨hv, hnext⟩ := hwalks.produced i v hcurrent
    obtain ⟨hlt, -⟩ := List.getElem?_eq_some_iff.1 hv
    have hcursor := hwalks.next_eq
    simp only [Option.toList_some, Option.map_some, List.map_cons, List.map_nil,
      List.cons_append, List.nil_append, List.forall_mem_cons, Difference.Exact]
    refine ⟨?_, ?_, by simp⟩
    · omega
    · omega

namespace Standard

variable [BEq α]

/-- **Every subtraction is exact** at what fits. -/
theorem Fits.exact {s : Session (Sequence α) PositionCursor α}
    (hs : sequence.Fits s.container s.frames) : ∀ d ∈ s.differences, d.Exact := by
  intro d hd
  rcases List.mem_append.1 hd with hd | hd
  · exact Segment.exact_differences (Nat.zero_le _) d hd
  · obtain ⟨f, hf, hd⟩ := List.mem_flatMap.1 hd
    obtain ⟨front, rest, hframes⟩ := List.append_of_mem hf
    have hfits : sequence.Fits s.container (f :: rest) := hs.of_suffix ⟨front, hframes.symm⟩
    cases f with
    | subList v =>
      exact Segment.exact_differences (x := v.segment.over s.container) hfits.inside d hd
    | sortedView v => simp [Frame.differences] at hd
    | iteration it ref => exact Iteration.exact_differences hfits.front d hd
    | listIterator it ref =>
      exact Segment.exact_differences (x := it.segment.over s.container) hfits.inside d hd

/-! ### Certain plans -/

/-- A list iterator that has an element finds it. -/
theorem current?_of_listIterator {it : ListIterator Unit} {ref : HandlerRef}
    {root : Watched (Sequence α)} {rest : List (Frame PositionCursor α)} {command : Command α}
    {f : Sequence α → Except Error (Mutation (Sequence α) α)}
    (hs : sequence.Fits root.inner (.listIterator it ref :: rest))
    (hf : ListIterator.mutation? it.cursor it.last command = some f)
    (he : f ⟨root.inner.window it.segment.start it.segment.tail⟩ = .error .noCurrentElement) :
    it.last = none := by
  have hr : ListIterator.InRange it.cursor it.last
      (root.inner.window it.segment.start it.segment.tail).length := by
    rw [Sequence.length_window]
    exact hs.front.2
  cases hlast : it.last with
  | none => rfl
  | some i =>
    have hget := List.getElem?_eq_getElem (hr.last_lt i hlast)
    rw [hlast] at hf
    cases command with
    | removeLast | setLast | insert =>
      obtain rfl := Option.some.inj hf
      simp [hget] at he
    | _ => simp [ListIterator.mutation?] at hf

/-- **Every plan is certain** at what fits, and an element is missing only where there is none. -/
theorem Fits.settles {s : Session (Sequence α) PositionCursor α}
    (hs : sequence.Fits s.container s.frames) {command : Command α}
    {op : Operation (Session (Sequence α) PositionCursor α) α (Response α)}
    (hop : sequence.operation? command s = some op) : s.Settles (op s) := by
  have hplan := sequence.operation_eq s hs command
  rw [hop, Option.map_some] at hplan
  cases hf : sequence.mutation? s.frames command with
  | none => simp [hf, Mutation.planned] at hplan
  | some f =>
    rw [hf] at hplan
    have hplanned : op s = (f s.container).map
        (·.plan sequence.size command s.container (sequence.afterward command s)) :=
      Option.some.inj hplan
    cases hm : f s.container with
    | ok m =>
      rw [hplanned, hm]
      exact ⟨rfl, m.response, rfl⟩
    | error e =>
      rw [hplanned, hm]
      rintro rfl
      obtain ⟨root, frames⟩ := s
      cases frames with
      | nil => rfl
      | cons g rest =>
        cases g with
        | subList v => rfl
        | sortedView v => rfl
        | iteration it ref =>
          cases command with
          | removeLast =>
            obtain rfl := Option.some.inj hf
            cases hcurrent : it.current with
            | none => simp [Session.current?, Iteration.index?, hcurrent]
            | some p => simp [hcurrent] at hm
          | _ => simp [mutation?, iterationMutation?] at hf
        | listIterator it ref =>
          obtain ⟨g, hg, rfl⟩ := Option.map_eq_some_iff.1 hf
          exact current?_of_listIterator hs hg (Sequence.error_of_within hm)

/-! ### Plays -/

/-- A play on a strict list is the play on the list. -/
theorem Fits.play_strict [ObjectIdentity α] {s : Session (Sequence α) PositionCursor α}
    (hs : sequence.Fits s.container s.frames) (obs : Observers ρ σ α) (actions : List (Action α))
    (w : World ρ σ) :
    Session.play obs (Session.listFamily (StrictList α)) actions s.strict w =
      (sequence.play obs actions s w).strict := by
  induction actions generalizing s w with
  | nil => rfl
  | cons a rest ih =>
    have hact := s.act_strict hs obs a w
    have hsame : s.act obs (Session.listFamily (Sequence α)) a w = sequence.act obs a s w := rfl
    rw [hsame] at hact
    rw [play_cons, Session.play, hact]
    cases hstep : sequence.act obs a s w with
    | none => exact ih hs w
    | some x =>
      obtain ⟨r, s', w'⟩ := x
      exact congrArg (Play.after · r) (ih (hs.act hstep) w')

/-- **Lists are used as they are meant to be**, among any parties and whatever is asked of them:
the same play on a strict list ends with the same list, unbroken; every subtraction of positions is
exact, also where a sub-list is opened; and every plan finds what it reports. -/
theorem play_keeps_strict [ObjectIdentity α] (obs : Observers ρ σ α) (actions : List (Action α))
    (c : Watched (Sequence α)) (w : World ρ σ) :
    let here := sequence.play obs actions c.session w
    Session.play obs (.list inferInstance) actions c.strict.session w = here.strict ∧
      (∀ d ∈ here.session.differences, d.Exact) ∧
      (∀ x start stop v w', here.session.segment? = some x →
        SubList.openIn obs here.session.handler x start stop here.world = (.ok v, w') →
        (⟨x.length, stop⟩ : Difference).Exact) ∧
      ∀ command op, sequence.operation? command here.session = some op →
        here.session.Settles (op here.session) := by
  intro here
  have hstart : sequence.Fits (c.session (κ := PositionCursor) (α := α)).container [] :=
    fits_nil sequence c.inner
  have hfits : sequence.Fits here.session.container here.session.frames :=
    Fits.play (s := c.session) hstart actions
  refine ⟨hstart.play_strict obs actions w, hfits.exact, ?_, ?_⟩
  · intro x start stop v w' _ hopen
    exact (SubList.eq_of_openIn hopen).2.2
  · intro command op hop
    exact hfits.settles hop

/-- A list iterator on a sub-list of a sub-list replaces an element and inserts another one. -/
theorem play_keeps_strict_nested :
    let k : Standard Int (Sequence Int) PositionCursor := .sequence
    let c := Watched.alone (⟨[1, 2, 3, 4, 5]⟩ : Sequence Int)
    let script := [.openFrame (.subList 1 4), .openFrame (.subList 1 2), .command (.add 9),
      .openFrame .listIterator, .move .next, .command (.setLast 7), .command (.insert 8)]
    let here := k.play Judge.always.observers script c.session k.world
    let strict := Session.play Judge.always.observers (.list inferInstance) script
      c.strict.session k.world
    strict.session.container.items? = some [1, 2, 7, 8, 9, 4, 5] ∧
      here.session.differences.map (fun d => (d.whole, d.taken)) =
        [(7, 0), (7, 0), (7, 0), (7, 2), (5, 2), (7, 2), (7, 2), (5, 2), (7, 2), (7, 1), (6, 1),
          (7, 1)] ∧
      ∀ d ∈ here.session.differences, d.Exact := by
  intro k c script here strict
  obtain ⟨hstrict, hexact, -⟩ := play_keeps_strict Judge.always.observers script c k.world
  refine ⟨?_, by decide +kernel, hexact⟩
  rw [show strict = here.strict from hstrict]
  decide +kernel

end Standard

end WatchedContainers
