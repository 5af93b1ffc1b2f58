import WatchedContainers.Proofs.Segment

/-!
# List iterators on a segment

An iterator on a segment does to the segment's elements what an iterator on a list of these elements
would do (`ListIterator.operation_eq`).  Its position stays in the segment, and so does the
element it moved over last (`ListIterator.InRange`).
-/

namespace WatchedContainers

namespace ListIterator

variable {α : Type}

structure InRange (cursor : Nat) (last : Option Nat) (n : Nat) : Prop where
  cursor_le : cursor ≤ n
  last_lt : ∀ i, last = some i → i < n

def around (pre mid suf : List α) (cursor : Nat) (last : Option Nat) : ListIterator (Sequence α) :=
  ⟨.around pre mid suf, cursor, last⟩

variable (pre mid suf : List α) {cursor n : Nat} {last : Option Nat}

@[simp] theorem segment_around :
    (around pre mid suf cursor last).segment = Segment.around pre mid suf := rfl

@[simp] theorem cursor_around : (around pre mid suf cursor last).cursor = cursor := rfl

@[simp] theorem last_around : (around pre mid suf cursor last).last = last := rfl

theorem elementAt_around {i : Nat} (h : i < mid.length) :
    (around pre mid suf cursor last).elementAt i = mid[i]? :=
  Segment.getElem?_around pre mid suf h

/-! ### Positions stay in range -/

theorem InRange.zero (n : Nat) : InRange 0 none n := ⟨Nat.zero_le _, by simp⟩

theorem InRange.of_lt (hc : cursor < n) : InRange (cursor + 1) (some cursor) n :=
  ⟨hc, fun _ hi => Option.some.inj hi ▸ hc⟩

theorem InRange.previous (hr : InRange cursor last n) (hc : cursor ≠ 0) :
    InRange (cursor - 1) (some (cursor - 1)) n := by
  have hlt : cursor - 1 < n := by
    have := hr.cursor_le
    omega
  exact ⟨Nat.le_of_lt hlt, fun _ hi => Option.some.inj hi ▸ hlt⟩

/-- After an accepted command the iterator stands in the changed segment. -/
theorem InRange.resumed {C : Type} {it : ListIterator C} {command : Command α}
    {f : Sequence α → Except Error (Mutation (Sequence α) α)} {s : Sequence α}
    {m : Mutation (Sequence α) α} (hr : InRange it.cursor it.last s.items.length)
    (hf : mutation? it.cursor it.last command = some f) (hm : f s = .ok m) :
    InRange (it.resumed command).cursor (it.resumed command).last m.container.items.length := by
  cases command with
  | removeLast =>
    obtain rfl := Option.some.inj hf
    cases hl : it.last with
    | none => simp [hl] at hm
    | some i =>
      have hi := hr.last_lt i hl
      simp only [hl, Option.bind_some, List.getElem?_eq_getElem hi, Option.map_some,
        Except.ok.injEq] at hm
      subst hm
      simp only [ListIterator.resumed, hl, List.length_eraseIdx_of_lt hi]
      exact ⟨by omega, by simp⟩
  | setLast v =>
    obtain rfl := Option.some.inj hf
    cases hl : it.last with
    | none => simp [hl] at hm
    | some i =>
      have hi := hr.last_lt i hl
      simp only [hl, Option.bind_some, List.getElem?_eq_getElem hi, Option.map_some,
        Except.ok.injEq] at hm
      subst hm
      simpa [ListIterator.resumed] using hr
  | insert v =>
    obtain rfl := Option.some.inj hf
    obtain rfl := Except.ok.inj hm
    have hc := hr.cursor_le
    simp only [ListIterator.resumed, List.length_insertIdx_of_le_length hc]
    exact ⟨by omega, by simp⟩
  | _ => simp [mutation?] at hf

/-! ### Moving -/

variable [BEq α]

theorem hasNext_around :
    (around pre mid suf cursor last).hasNext = decide (cursor < mid.length) := by
  rw [hasNext, around, Segment.length_around]

theorem next_around :
    (around pre mid suf cursor last).next =
      if cursor < mid.length then
        (mid[cursor]?, around pre mid suf (cursor + 1) (some cursor))
      else (none, around pre mid suf cursor last) := by
  rw [next, hasNext_around]
  by_cases h : cursor < mid.length
  · rw [if_pos (decide_eq_true h), if_pos h]
    exact Prod.ext (elementAt_around pre mid suf h) rfl
  · rw [if_neg (by simpa using h), if_neg h]

omit [BEq α] in
theorem previous_around (hr : InRange cursor last mid.length) :
    (around pre mid suf cursor last).previous =
      if cursor = 0 then (none, around pre mid suf cursor last)
      else (mid[cursor - 1]?, around pre mid suf (cursor - 1) (some (cursor - 1))) := by
  unfold previous previousIndex?
  by_cases h : cursor = 0
  · simp only [around, h, if_true]
  · have hlt : cursor - 1 < mid.length := by
      have := hr.cursor_le
      omega
    simp only [around, h, if_false]
    exact Prod.ext (elementAt_around pre mid suf hlt) rfl

/-! ### Commands -/

theorem planRemove_around {i : Nat} (hi : i < mid.length) :
    planRemove (around pre mid suf cursor (some i)) =
      .ok (.reporting (.removeIterated i mid[i]) (pre ++ mid ++ suf).length false
        (around pre (mid.eraseIdx i) suf i none) (.removeIterated i mid[i])
        (pre ++ mid.eraseIdx i ++ suf).length true) := by
  have hget := getElem?_middle pre mid suf i hi
  have hv := List.getElem?_eq_getElem hi
  simp only [planRemove, last_around, elementAt_around _ _ _ hi, hv, segment_around,
    Segment.list_around, Segment.start_around, Sequence.removeAt_eq, hget,
    eraseIdx_middle _ _ _ _ hi]
  rfl

theorem planSet_around {i : Nat} (hi : i < mid.length) (v : α) :
    planSet v (around pre mid suf cursor (some i)) =
      .ok (.reporting (.setIterated i v) (pre ++ mid ++ suf).length false
        (around pre (mid.set i v) suf cursor (some i)) (.setIterated i v mid[i])
        (pre ++ mid ++ suf).length true) := by
  have hget := getElem?_middle pre mid suf i hi
  have hv := List.getElem?_eq_getElem hi
  have hcurrent := getElem?_middle pre (mid.set i v) suf i (by simpa using hi)
  rw [List.getElem?_set_self hi] at hcurrent
  simp only [planSet, last_around, segment_around, Segment.list_around, Segment.start_around,
    Sequence.setAt_eq, hget, hv, set_middle _ _ _ _ _ hi, Sequence.get?_eq, hcurrent]
  rfl

theorem planAdd_around (hc : cursor ≤ mid.length) (v : α) :
    planAdd v (around pre mid suf cursor last) =
      .ok (.reporting (.addIterated cursor v) (pre ++ mid ++ suf).length false
        (around pre (mid.insertIdx cursor v) suf (cursor + 1) none) (.addIterated cursor v)
        (pre ++ mid.insertIdx cursor v ++ suf).length true) := by
  have hlen : cursor < (mid.insertIdx cursor v).length := by
    rw [List.length_insertIdx_of_le_length hc]
    omega
  have hadded := getElem?_middle pre (mid.insertIdx cursor v) suf cursor hlen
  rw [List.getElem?_insertIdx_self, if_pos hc] at hadded
  simp only [planAdd, cursor_around, segment_around, Segment.list_around, Segment.start_around,
    Sequence.insertAt_eq, insertIdx_middle _ _ _ _ _ hc, Sequence.get?_eq, hadded]
  rfl

theorem operation_around (hr : InRange cursor last mid.length) (command : Command α) :
    (operation? command).map (· (around pre mid suf cursor last)) =
      (mutation? cursor last command).map fun f => (f ⟨mid⟩).map fun m =>
        (m.map fun t => (⟨pre ++ t.items ++ suf⟩ : Sequence α)).plan Collection.size command
          ⟨pre ++ mid ++ suf⟩ ((around pre mid suf cursor last).resumed command).withList := by
  cases command with
  | removeLast =>
    cases last with
    | none => rfl
    | some i =>
      have hi := hr.last_lt i rfl
      refine congrArg some ((Operation.answering_eq (planRemove_around pre mid suf hi)).trans ?_)
      simp only [Option.bind_some, List.getElem?_eq_getElem hi, Option.map_some]
      rfl
  | setLast v =>
    cases last with
    | none => rfl
    | some i =>
      have hi := hr.last_lt i rfl
      refine congrArg some ((Operation.answering_eq (planSet_around pre mid suf hi v)).trans ?_)
      simp only [Option.bind_some, List.getElem?_eq_getElem hi, Option.map_some]
      simp [Except.map, Mutation.plan, Mutation.map, Plan.lift, Plan.reporting, Command.refusal,
        around, withList, resumed, Segment.around]
  | insert v =>
    exact congrArg some (Operation.answering_eq (planAdd_around pre mid suf hr.cursor_le v))
  | _ => rfl

/-- **Locality of list iterators.**  A command at an iterator on a segment carries out, within the
window of the segment, the mutation that the command stands for on a list of the segment's
elements. -/
theorem operation_eq (it : ListIterator (Sequence α)) (command : Command α)
    (h : it.segment.start + it.segment.tail ≤ it.segment.list.items.length)
    (hr : InRange it.cursor it.last
      (it.segment.list.items.length - it.segment.start - it.segment.tail)) :
    (operation? command).map (· it) =
      Mutation.planned Collection.size command it.segment.list (it.resumed command).withList
        (((mutation? it.cursor it.last command).map
          (Sequence.within it.segment.start it.segment.tail)).map (· it.segment.list)) := by
  obtain ⟨⟨list, start, tail⟩, cursor, last⟩ := it
  obtain ⟨pre, mid, suf, rfl, rfl, rfl⟩ := Sequence.exists_middle list start tail h
  have hn : (pre ++ mid ++ suf).length - pre.length - suf.length = mid.length := by
    simp only [List.length_append]
    omega
  simp only [hn] at hr
  refine (operation_around pre mid suf hr command).trans ?_
  rw [Mutation.planned, Option.map_map, Option.map_map]
  refine congrArg (Option.map · (mutation? cursor last command)) (funext fun f => ?_)
  rw [Function.comp_apply, Function.comp_apply, Sequence.within_middle]
  cases f ⟨mid⟩ <;> rfl

end ListIterator

end WatchedContainers
