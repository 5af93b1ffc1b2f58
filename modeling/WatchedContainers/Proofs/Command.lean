import WatchedContainers.Proofs.Iteration
import WatchedContainers.Proofs.ListIterator

/-!
# Commands and the mutations they stand for

What was opened on a container fits it (`Standard.Fits`): windows lie in the list, windows of inner
views lie in those of outer ones, and an iterator in front is in step with the container.  Under
this condition every command is planned as the mutation it stands for (`Standard.operation_eq`).
-/

namespace WatchedContainers

variable {C κ α : Type}

/-! ### Windows -/

namespace Frame

def isView : Frame κ α → Bool
  | subList _ | sortedView _ => true
  | _ => false

end Frame

/-- How many elements are left out in front of what was opened last, and behind it. -/
def flanks : List (Frame κ α) → Nat × Nat
  | .subList v :: _ => (v.segment.start, v.segment.tail)
  | .listIterator it _ :: _ => (it.segment.start, it.segment.tail)
  | _ => (0, 0)

/-- What is opened on a view leaves out at least what the view leaves out. -/
def Nested : List (Frame κ α) → Prop
  | [] => True
  | f :: rest =>
    (flanks rest).1 ≤ (flanks (f :: rest)).1 ∧ (flanks rest).2 ≤ (flanks (f :: rest)).2 ∧
      Nested rest

namespace Standard

/-- The iterator in front, if there is one, stands at a place of the container.  A list iterator
walks on what it was opened on. -/
def FrontFits (k : Standard α C κ) (c : C) : List (Frame κ α) → Prop
  | .iteration it _ :: _ => k.InStep c it
  | .listIterator it _ :: rest =>
    (it.segment.start, it.segment.tail) = flanks rest ∧
      ListIterator.InRange it.cursor it.last (k.size c - it.segment.start - it.segment.tail)
  | _ => True

structure Fits (k : Standard α C κ) (c : C) (frames : List (Frame κ α)) : Prop where
  views : ∀ f ∈ frames.tail, f.isView
  nested : Nested frames
  inside : (flanks frames).1 + (flanks frames).2 ≤ k.size c
  front : k.FrontFits c frames

end Standard

/-! ### Plans of commands -/

theorem Operation.on_map {S T β γ : Type} (part : T → S) (put : T → S → T) (answer : β → γ)
    (o : Option (Operation S α β)) (t : T) :
    (o.map (Operation.on part put answer)).map (· t) =
      (o.map (· (part t))).map fun x => x.map (Plan.lift (put t) answer) := by
  cases o <;> rfl

/-- An operation on a part is planned as a mutation if it is planned so on the part itself. -/
theorem Operation.on_eq_planned {D S T : Type} (part : T → S) (put : T → S → T) (t : T)
    {o : Option (Operation S α (Response α))} {m : Option (Except Error (Mutation D α))}
    {size : D → Nat} {command : Command α} {c : D} {inPart : D → S}
    (h : o.map (· (part t)) = Mutation.planned size command c inPart m) :
    (o.map (Operation.on part put id)).map (· t) =
      Mutation.planned size command c (fun d => put t (inPart d)) m := by
  rw [Operation.on_map, h]
  cases m with
  | none => rfl
  | some r => cases r <;> rfl

namespace Session

section Lists

variable [BEq α]

theorem onWhole_eq (s : Session (Sequence α) PositionCursor α) (command : Command α) :
    ((Segment.operation? command).map onWhole).map (· s) =
      Mutation.planned Collection.size command s.container s.withContainer
        ((Sequence.mutation? command).map (· s.container)) := by
  have hplan := Operation.on_eq_planned
    (fun s : Session (Sequence α) PositionCursor α => Segment.whole s.container)
    (fun s x => s.withContainer x.list) s
    (Segment.operation_eq (.whole s.container) (Nat.zero_le _) command)
  refine hplan.trans (congrArg (Mutation.planned _ _ _ _) ?_)
  rw [Option.map_map]
  exact congrArg (Option.map · _) (funext fun f => Sequence.within_zero f s.container)

theorem onSubList_eq (root : Watched (Sequence α)) (v : SubList Unit)
    (rest : List (Frame PositionCursor α)) (command : Command α)
    (h : v.segment.start + v.segment.tail ≤ root.inner.items.length) :
    ((Segment.operation? command).map (onSubList v)).map (· ⟨root, .subList v :: rest⟩) =
      Mutation.planned Collection.size command root.inner
        (fun c => ⟨{ root with inner := c }, .subList v :: rest⟩)
        (((Sequence.mutation? command).map
          (Sequence.within v.segment.start v.segment.tail)).map (· root.inner)) :=
  Operation.on_eq_planned
    (fun s : Session (Sequence α) PositionCursor α => v.segment.over s.container)
    (fun s x => s.update x.list (.subList { v with segment := x.over () }))
    ⟨root, .subList v :: rest⟩ (Segment.operation_eq (v.segment.over root.inner) h command)

theorem onListIterator_eq (root : Watched (Sequence α)) (it : ListIterator Unit) (h : HandlerRef)
    (rest : List (Frame PositionCursor α)) (command : Command α)
    (hin : it.segment.start + it.segment.tail ≤ root.inner.items.length)
    (hr : ListIterator.InRange it.cursor it.last
      (root.inner.items.length - it.segment.start - it.segment.tail)) :
    ((ListIterator.operation? command).map (onListIterator it h)).map
        (· ⟨root, .listIterator it h :: rest⟩) =
      Mutation.planned Collection.size command root.inner
        (fun c => ⟨{ root with inner := c }, .listIterator (it.resumed command) h :: rest⟩)
        (((ListIterator.mutation? it.cursor it.last command).map
          (Sequence.within it.segment.start it.segment.tail)).map (· root.inner)) := by
  have hplan := Operation.on_eq_planned
    (fun s : Session (Sequence α) PositionCursor α => it.over s.container)
    (fun s x => s.update x.segment.list (.listIterator (x.over ()) h))
    ⟨root, .listIterator it h :: rest⟩
    (ListIterator.operation_eq (it.over root.inner) command hin hr)
  have hresumed : ∀ c : Sequence α,
      (((it.over root.inner).resumed command).withList c).over () = it.resumed command := by
    intro c
    obtain ⟨⟨_, _, _⟩, _, last⟩ := it
    cases command <;> cases last <;> rfl
  refine hplan.trans (congrArg (Mutation.planned _ _ _ · _) (funext fun c => ?_))
  exact congrArg (fun x => Session.mk { root with inner := c } (.listIterator x h :: rest))
    (hresumed c)

end Lists

theorem onSortedView_eq [BEq α] [Ord α] [Std.TransOrd α] (root : Watched (SortedSet α))
    (v : SortedView Unit α) (rest : List (Frame (ResumingCursor α) α)) (command : Command α) :
    ((SubRange.operation? command).map (onSortedView v)).map (· ⟨root, .sortedView v :: rest⟩) =
      Mutation.planned Collection.size command root.inner
        (fun c => ⟨{ root with inner := c }, .sortedView v :: rest⟩)
        ((SortedSet.rangeMutation? v.range.bounds command).map (· root.inner)) :=
  Operation.on_eq_planned
    (fun s : Session (SortedSet α) (ResumingCursor α) α => v.range.over s.container)
    (fun s x => s.update x.set (.sortedView { v with range := x.over () }))
    ⟨root, .sortedView v :: rest⟩ (SubRange.operation_eq root.inner v.range.bounds command)

end Session

namespace Standard

theorem onIteration_eq (k : Standard α C κ) (root : Watched C) (it : Iteration Unit κ α)
    (h : HandlerRef) (rest : List (Frame κ α)) (command : Command α)
    (hit : k.InStep root.inner it) :
    ((k.iterationOperation? command).map (Session.onIteration it h)).map
        (· ⟨root, .iteration it h :: rest⟩) =
      Mutation.planned k.size command root.inner
        (fun c => ⟨{ root with inner := c }, .iteration (k.resumed it) h :: rest⟩)
        ((k.iterationMutation? it.current command).map (· root.inner)) := by
  have hover : k.InStep root.inner (it.over root.inner) := hit.of_fields rfl rfl rfl rfl
  have hplan := Operation.on_eq_planned
    (fun s : Session C κ α => it.over s.container)
    (fun s x => s.update x.container (.iteration (x.over ()) h))
    ⟨root, .iteration it h :: rest⟩ (hover.operation_eq command)
  refine hplan.trans (congrArg (Mutation.planned _ _ _ · _) (funext fun c => ?_))
  have hresumed :
      ({ k.resumed (it.over root.inner) with container := c } : Iteration C κ α).over () =
        k.resumed it := by
    unfold resumed
    simp only [Iteration.over]
    split <;> rfl
  exact congrArg (fun x => Session.mk { root with inner := c } (.iteration x h :: rest)) hresumed

theorem rootOperation?_eq (k : Standard α C κ) (s : Session C κ α) (command : Command α)
    (hs : s.frames = []) :
    (k.operation? command s).map (· s) =
      Mutation.planned k.size command s.container s.withContainer
        ((k.rootMutation? command).map (· s.container)) := by
  obtain ⟨root, frames⟩ := s
  obtain rfl : frames = [] := hs
  cases k with
  | sequence =>
    cases command with
    | addAt i v => exact Session.onWhole_eq _ (.addAt i v)
    | addAllAt i vs => exact Session.onWhole_eq _ (.addAllAt i vs)
    | removeAt i => exact Session.onWhole_eq _ (.removeAt i)
    | set i v => exact Session.onWhole_eq _ (.set i v)
    | _ => rfl
  | queue => cases command <;> rfl
  | uniqueSet => cases command <;> rfl
  | sortedSet => cases command <;> rfl
  | bag => cases command <;> rfl

/-- **Commands are planned as the mutations they stand for**, whatever is open. -/
theorem operation_eq (k : Standard α C κ) (s : Session C κ α) (hs : k.Fits s.container s.frames)
    (command : Command α) :
    (k.operation? command s).map (· s) =
      Mutation.planned k.size command s.container (k.afterward command s)
        ((k.mutation? s.frames command).map (· s.container)) := by
  obtain ⟨root, frames⟩ := s
  cases frames with
  | nil => exact k.rootOperation?_eq ⟨root, []⟩ command rfl
  | cons f rest =>
    cases f with
    | subList v =>
      cases k with
      | sequence => exact Session.onSubList_eq root v rest command hs.inside
      | queue | uniqueSet | sortedSet | bag => rfl
    | sortedView v =>
      cases k with
      | sortedSet => exact Session.onSortedView_eq root v rest command
      | sequence | queue | uniqueSet | bag => rfl
    | iteration it h =>
      have hplan := k.onIteration_eq root it h rest command hs.front
      cases k with
      | sequence | queue | uniqueSet | sortedSet | bag => exact hplan
    | listIterator it h =>
      cases k with
      | sequence => exact Session.onListIterator_eq root it h rest command hs.inside hs.front.2
      | queue | uniqueSet | sortedSet | bag => rfl

end Standard

end WatchedContainers
