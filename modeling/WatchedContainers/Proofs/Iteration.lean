import WatchedContainers.Proofs.Erasure
import WatchedContainers.Proofs.Segment

/-!
# Iterations in step

An iteration counts the elements it passes and remembers the one it produced last; its cursor keeps
a place of its own.  The two stay in step (`Standard.InStep`), so a removal always finds the element
that it announced.

* `Standard.InStep.along`, `Standard.InStep.next`: iterations start in step and move in step.
* `Standard.Walks.erase`: an element that was produced last is there to be taken out.
* `Standard.InStep.operation_eq`: **a removal is the mutation it stands for**, and the iteration
  goes on in step (`Standard.InStep.resumed`).
-/

namespace WatchedContainers

variable {C D κ α : Type}

/-! ### Cursors and what they produced -/

section Walks

variable {items : List α} {n : Nat} {current : Option (Nat × α)} {v : α}

/-- The cursor stands where the iteration counts, on the element produced last. -/
structure PositionCursor.InStep (items : List α) (cur : PositionCursor) (n : Nat)
    (current : Option (Nat × α)) : Prop where
  next_eq : cur.next = n
  current_eq : cur.current = current.map (·.1)
  produced : ∀ i v, current = some (i, v) → items[i]? = some v ∧ n = i + 1

/-- What the copy still has to come, and what it produced last, is left in the container. -/
structure CopyCursor.InStep (items : List α) (cur : CopyCursor α) (current : Option (Nat × α)) :
    Prop where
  current_eq : cur.current = current.map (·.2)
  pending : (cur.current.toList ++ cur.items.drop cur.next).Sublist items

/-- The cursor resumes after an element of the container, if the iteration produced one. -/
structure ResumingCursor.InStep (items : List α) (cur : ResumingCursor α)
    (current : Option (Nat × α)) : Prop where
  produced : ∀ i v, current = some (i, v) → cur.last = some v ∧ cur.removable ∧ v ∈ items

theorem PositionCursor.advance_of_none {cur : PositionCursor} (h : (cur.advance items).1 = none) :
    (cur.advance items).2 = cur := by
  unfold advance at h ⊢
  split <;> simp_all

theorem PositionCursor.InStep.advance {cur : PositionCursor} (h : cur.InStep items n current)
    (hv : (cur.advance items).1 = some v) :
    (cur.advance items).2.InStep items (n + 1) (some (n, v)) := by
  unfold PositionCursor.advance at hv ⊢
  split at hv
  next x hx =>
    obtain rfl := Option.some.inj hv
    refine ⟨congrArg (· + 1) h.next_eq, congrArg some h.next_eq, fun i y hy => ?_⟩
    obtain ⟨rfl, rfl⟩ := Prod.mk.inj (Option.some.inj hy)
    exact ⟨h.next_eq ▸ hx, rfl⟩
  next => exact absurd hv (by simp)

/-- The element produced last stands where the cursor steps back to. -/
theorem PositionCursor.InStep.release {cur : PositionCursor} {i : Nat}
    (h : cur.InStep items n (some (i, v))) :
    items[i]? = some v ∧ cur.release = (some i, { next := cur.next - 1, current := none }) ∧
      cur.next - 1 = i ∧ (items.eraseIdx i).length + 1 = items.length := by
  obtain ⟨hv, hn⟩ := h.produced i v rfl
  obtain ⟨hlt, -⟩ := List.getElem?_eq_some_iff.1 hv
  refine ⟨hv, ?_, ?_, ?_⟩
  · simp only [PositionCursor.release, h.current_eq, Option.map_some]
  · rw [h.next_eq, hn, Nat.add_sub_cancel]
  · rw [List.length_eraseIdx_of_lt hlt]
    omega

theorem CopyCursor.advance_of_none {cur : CopyCursor α} (h : cur.advance.1 = none) :
    cur.advance.2 = cur := by
  unfold advance at h ⊢
  split <;> simp_all

theorem CopyCursor.InStep.advance {cur : CopyCursor α} (h : cur.InStep items current)
    (hv : cur.advance.1 = some v) : cur.advance.2.InStep items (some (n, v)) := by
  unfold CopyCursor.advance at hv ⊢
  split at hv
  next x hx =>
    obtain rfl := Option.some.inj hv
    obtain ⟨hlt, rfl⟩ := List.getElem?_eq_some_iff.1 hx
    have hpending := h.pending
    rw [List.drop_eq_getElem_cons hlt] at hpending
    exact ⟨rfl, (List.sublist_append_right ..).trans hpending⟩
  next => exact absurd hv (by simp)

theorem CopyCursor.InStep.cons_sublist {cur : CopyCursor α} {i : Nat}
    (h : cur.InStep items (some (i, v))) : (v :: cur.items.drop cur.next).Sublist items := by
  have hpending := h.pending
  rwa [h.current_eq] at hpending

theorem SortedSet.next_of_none [Ord α] {s : SortedSet α} {cur : ResumingCursor α}
    (h : (SortedSet.next cur s).1 = none) : (SortedSet.next cur s).2 = cur := by
  unfold SortedSet.next at h ⊢
  split <;> simp_all

theorem SortedSet.inStep_next [Ord α] [Std.TransOrd α] {s : SortedSet α} {cur : ResumingCursor α}
    (hv : (SortedSet.next cur s).1 = some v) :
    (SortedSet.next cur s).2.InStep s.items (some (n, v)) := by
  cases hl : s.items.filter cur.rest.contains with
  | nil =>
    rw [SortedSet.next_eq_none hl] at hv
    exact absurd hv (by simp)
  | cons x l =>
    rw [SortedSet.next_eq_some hl] at hv ⊢
    obtain rfl := Option.some.inj hv
    refine ⟨fun i y hy => ?_⟩
    obtain ⟨rfl, rfl⟩ := Prod.mk.inj (Option.some.inj hy)
    exact ⟨rfl, rfl, (SortedSet.filter_rest hl).1⟩

end Walks

namespace Iteration

variable [Traversal C κ α] {it : Iteration C κ α}

theorem planRemove_of_none (h : it.current = none) : it.planRemove = .error .noCurrentElement := by
  rw [planRemove, h]

theorem planRemove_of_some {i : Nat} {v removed : α} {cur : κ} {c : C}
    (h : it.current = some (i, v))
    (hr : Traversal.remove it.cursor it.container = (some removed, cur, c)) :
    it.planRemove = .ok (.reporting (.removeIterated i v) it.size false
      { container := c, cursor := cur, size := it.size - 1, nextIndex := i, current := none }
      (.removeIterated i removed) (it.size - 1) true) := by
  simp only [planRemove, h, hr]

end Iteration

namespace Standard

/-! ### In step -/

/-- The cursor of a standard container agrees with what the iteration remembers. -/
def Walks (n : Nat) (current : Option (Nat × α)) : Standard α C κ → C → κ → Prop
  | sequence => fun s cur => cur.InStep s.items n current
  | queue => fun q cur => cur.InStep q.items n current
  | uniqueSet => fun s cur => cur.InStep s.items current
  | sortedSet => fun s cur => cur.InStep s.items current
  | bag => fun b cur => cur.InStep b.toList current

/-- The iteration over the container `c` and its cursor agree, and the iteration knows the size of
the container. -/
structure InStep (k : Standard α C κ) (c : C) (it : Iteration D κ α) : Prop where
  size_eq : it.size = k.size c
  walks : k.Walks it.nextIndex it.current c it.cursor

def along (k : Standard α C κ) (c : C) : Iteration C κ α :=
  letI := k.collection
  letI := k.traversal
  .along c (Traversal.cursor c)

def advance (k : Standard α C κ) (cur : κ) (c : C) : Option α × κ :=
  letI := k.traversal
  Traversal.next cur c

def next (k : Standard α C κ) (it : Iteration C κ α) : Option α × Iteration C κ α :=
  letI := k.traversal
  it.next

theorem next_eq (k : Standard α C κ) (it : Iteration C κ α) :
    k.next it = match k.advance it.cursor it.container with
      | (some v, cursor) => (some v,
          { it with cursor, nextIndex := it.nextIndex + 1, current := some (it.nextIndex, v) })
      | (none, cursor) => (none, { it with cursor }) := rfl

theorem advance_of_none (k : Standard α C κ) {cur cur' : κ} {c : C}
    (h : k.advance cur c = (none, cur')) : cur' = cur := by
  have h₁ : (k.advance cur c).1 = none := congrArg Prod.fst h
  obtain rfl : (k.advance cur c).2 = cur' := congrArg Prod.snd h
  cases k with
  | sequence => exact PositionCursor.advance_of_none h₁
  | queue => exact PositionCursor.advance_of_none h₁
  | uniqueSet => exact CopyCursor.advance_of_none h₁
  | sortedSet => exact SortedSet.next_of_none h₁
  | bag => exact CopyCursor.advance_of_none h₁

theorem Walks.advance {k : Standard α C κ} {n : Nat} {current : Option (Nat × α)} {cur cur' : κ}
    {c : C} {v : α} (h : k.Walks n current c cur) (hv : k.advance cur c = (some v, cur')) :
    k.Walks (n + 1) (some (n, v)) c cur' := by
  have h₁ : (k.advance cur c).1 = some v := congrArg Prod.fst hv
  obtain rfl : (k.advance cur c).2 = cur' := congrArg Prod.snd hv
  cases k with
  | sequence => exact PositionCursor.InStep.advance h h₁
  | queue => exact PositionCursor.InStep.advance h h₁
  | uniqueSet => exact CopyCursor.InStep.advance h h₁
  | sortedSet => exact SortedSet.inStep_next h₁
  | bag => exact CopyCursor.InStep.advance h h₁

def takeOut (k : Standard α C κ) (cur : κ) (c : C) : Option α × κ × C :=
  letI := k.traversal
  Traversal.remove cur c

def iterationOperation? (k : Standard α C κ) (command : Command α) :
    Option (Operation (Iteration C κ α) α (Response α)) :=
  letI := k.traversal
  Iteration.operation? command

/-- **An element that was produced last is there to be taken out**, and the cursor stays in step. -/
theorem Walks.erase {k : Standard α C κ} {n i : Nat} {v : α} {cur : κ} {c : C}
    (h : k.Walks n (some (i, v)) c cur) :
    ((k.erase i v c).1 = some v ∧
      k.takeOut cur c = (some v, k.release cur, (k.erase i v c).2)) ∧
    k.size (k.erase i v c).2 + 1 = k.size c ∧
    k.Walks i none (k.erase i v c).2 (k.release cur) := by
  cases k with
  | sequence =>
    obtain ⟨hv, hrelease, hnext, hlen⟩ := h.release
    refine ⟨⟨hv, ?_⟩, hlen, hnext, rfl, by simp⟩
    simp only [takeOut, Traversal.remove, hrelease, hv]
    rfl
  | queue =>
    obtain ⟨hv, hrelease, hnext, hlen⟩ := h.release
    refine ⟨⟨hv, ?_⟩, hlen, hnext, rfl, by simp⟩
    simp only [takeOut, Traversal.remove, hrelease, hv]
    rfl
  | uniqueSet =>
    have hsub := h.cons_sublist
    obtain ⟨hv, hlen⟩ := UniqueSet.take_of_mem (hsub.subset List.mem_cons_self)
    refine ⟨⟨hv, ?_⟩, hlen, rfl, UniqueSet.sublist_take hsub⟩
    have hcur := h.current_eq
    simp only [takeOut, Traversal.remove, CopyCursor.release, hcur, Option.map_some, hv]
    rfl
  | sortedSet =>
    obtain ⟨hlast, hremovable, hv⟩ := h.produced i v rfl
    have hfind := c.find?_eq_of_mem hv
    refine ⟨⟨hfind, ?_⟩, c.length_take_add_one hv, ⟨by simp⟩⟩
    have htake : (c.take v).1 = some v := hfind
    simp only [takeOut, Traversal.remove, SortedSet.removeLast, hremovable, hlast, if_true, htake]
    simp only [release, hlast]
    rfl
  | bag =>
    have hsub := h.cons_sublist
    obtain ⟨m, he⟩ := CountedBag.entry?_of_mem (hsub.subset List.mem_cons_self)
    have hremove : c.remove v = (some v, c.lowered v 1) := by
      simp [CountedBag.remove, he]
    have herase : bag.erase i v c = (some v, c.lowered v 1) := hremove
    rw [herase]
    refine ⟨⟨rfl, ?_⟩, CountedBag.size_lowered he, rfl, CountedBag.sublist_lowered hsub⟩
    have hcur := h.current_eq
    simp only [takeOut, Traversal.remove, CopyCursor.release, hcur, Option.map_some, hremove]
    rfl

theorem size_along (k : Standard α C κ) (c : C) : (k.along c).size = k.size c := rfl

namespace InStep

variable {k : Standard α C κ} {c : C} {it : Iteration C κ α}

/-- Whether an iteration is in step does not depend on the container it carries. -/
theorem of_fields {E : Type} {it : Iteration D κ α} {it' : Iteration E κ α} (h : k.InStep c it)
    (hsize : it'.size = it.size) (hnext : it'.nextIndex = it.nextIndex)
    (hcurrent : it'.current = it.current) (hcursor : it'.cursor = it.cursor) : k.InStep c it' :=
  ⟨hsize.trans h.size_eq, by rw [hnext, hcurrent, hcursor]; exact h.walks⟩

theorem along (k : Standard α C κ) (c : C) : k.InStep c (k.along c) := by
  refine ⟨k.size_along c, ?_⟩
  cases k with
  | sequence => exact ⟨rfl, rfl, by simp [Standard.along, Iteration.along]⟩
  | queue => exact ⟨rfl, rfl, by simp [Standard.along, Iteration.along]⟩
  | uniqueSet => exact ⟨rfl, List.Sublist.refl _⟩
  | sortedSet => exact ⟨by simp [Standard.along, Iteration.along]⟩
  | bag => exact ⟨rfl, List.Sublist.refl _⟩

/-- **Iterations move in step.** -/
theorem next (h : k.InStep it.container it) : k.InStep it.container (k.next it).2 := by
  rw [next_eq]
  cases hv : k.advance it.cursor it.container with
  | mk v cursor =>
    cases v with
    | none => exact ⟨h.size_eq, k.advance_of_none hv ▸ h.walks⟩
    | some v => exact ⟨h.size_eq, h.walks.advance hv⟩

/-- **Iterations go on in step** after a removal. -/
theorem resumed {it : Iteration D κ α} {i : Nat} {v : α} (h : k.InStep c it)
    (hc : it.current = some (i, v)) :
    k.InStep (k.erase i v c).2 (k.resumed it) := by
  have hw := h.walks
  rw [hc] at hw
  obtain ⟨-, hsize, hnext⟩ := hw.erase
  simp only [Standard.resumed, hc]
  refine ⟨?_, hnext⟩
  change it.size - 1 = _
  have := h.size_eq
  omega

/-- **A removal is the mutation it stands for.** -/
theorem operation_eq (h : k.InStep it.container it) (command : Command α) :
    (k.iterationOperation? command).map (· it) =
      Mutation.planned k.size command it.container (fun c => { k.resumed it with container := c })
        ((k.iterationMutation? it.current command).map (· it.container)) := by
  cases command with
  | removeLast =>
    let _ := k.traversal
    cases hc : it.current with
    | none =>
      exact congrArg some (Operation.answering_eq (Iteration.planRemove_of_none hc))
    | some p =>
      obtain ⟨i, v⟩ := p
      have hw := h.walks
      rw [hc] at hw
      obtain ⟨⟨hremoved, hout⟩, hsize, -⟩ := hw.erase
      refine congrArg some
        ((Operation.answering_eq (Iteration.planRemove_of_some hc hout)).trans ?_)
      have hbefore := h.size_eq
      have hafter : it.size - 1 = k.size (k.erase i v it.container).2 := by omega
      simp only [hremoved, Standard.resumed, hc]
      rw [hafter, hbefore]
      rfl
  | _ => rfl

end InStep

end Standard

end WatchedContainers
