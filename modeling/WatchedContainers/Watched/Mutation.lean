import WatchedContainers.Watched.Session

/-!
# Mutations

What a command comes down to once it is accepted, said of the bare container: the container
afterwards, the result, and what the root's hooks are to hear of it.  A command at a view is a
mutation of what the view shows, put back between the elements left out; a command at an iterator
is a mutation at the element the iterator stands for.

* `Standard.mutation?`: **the mutation that a command stands for** at what was opened last.
* `Mutation.plan`: the plan of an operation that carries a mutation out.
-/

namespace WatchedContainers

variable {C D S κ α : Type}

/-- What an accepted command does to a container, and what is said of it. -/
structure Mutation (C α : Type) where
  proposal : Modification α
  completion : Completion α
  response : Response α
  container : C

namespace Mutation

def map (f : C → D) (m : Mutation C α) : Mutation D α := { m with container := f m.container }

/-- The plan that proposes and reports a mutation of the container `c`.  The state around the
container afterwards is made by `put`. -/
def plan (size : C → Nat) (m : Mutation C α) (command : Command α) (c : C) (put : C → S) :
    Plan S α (Response α) :=
  .reporting m.proposal (size c) command.refusal (put m.container) m.completion
    (size m.container) m.response

/-- The plans of a mutation that may be missing or fail. -/
def planned (size : C → Nat) (command : Command α) (c : C) (put : C → S)
    (m : Option (Except Error (Mutation C α))) :
    Option (Except Error (Plan S α (Response α))) :=
  m.map (Except.map (·.plan size command c put))

def retaining [Collection C α] (proposal : Modification α) (completion : Bool → Completion α)
    (keep : α → Bool) (c : C) : Mutation C α :=
  let (modified, c') := Collection.retain c keep
  ⟨proposal, completion modified, .flag modified, c'⟩

end Mutation

/-! ### At a container -/

def Collection.mutation? [Collection C α] [BEq α] : Command α → Option (C → Mutation C α)
  | .add v => some fun c => ⟨.add v, .add v (add c v).1, .flag (add c v).1, (add c v).2⟩
  | .addAll vs => some fun c =>
      ⟨.addAll vs, .addAll vs (addAll c vs).1, .flag (addAll c vs).1, (addAll c vs).2⟩
  | .remove v => some fun c =>
      ⟨.remove v, .remove v (remove c v).1, .flag (remove c v).1.isSome, (remove c v).2⟩
  | .removeAll vs => some (.retaining (.removeAll vs) (.removeAll vs) fun x => !vs.any (· == x))
  | .retainAll vs => some (.retaining (.retainAll vs) (.retainAll vs) fun x => vs.any (· == x))
  | .clear => some fun c => ⟨.clear, .clear (size c != 0), .flag (size c != 0), clear c⟩
  | _ => none

def Counted.mutation? [Counted C α] : Command α → Option (C → Mutation C α)
  | .addCopies v n => some fun c =>
      ⟨.addCopies v n, .addCopies v n true, .flag (addCopies c v n).1, (addCopies c v n).2⟩
  | .removeCopies v n => some fun c =>
      ⟨.removeCopies v n, .removeCopies v n true, .flag (removeCopies c v n).1,
        (removeCopies c v n).2⟩
  | _ => none

def Buffered.mutation? [Buffered C α] : Command α → Option (C → Mutation C α)
  | .removeNext => some fun c =>
      ⟨.removeNext, .removeNext (removeNext c).1, .element (removeNext c).1, (removeNext c).2⟩
  | _ => none

/-! ### At a sequence and its windows -/

namespace Sequence

def window (start tail : Nat) (s : Sequence α) : List α :=
  (s.items.take (s.items.length - tail)).drop start

/-- Other elements in the place of a window. -/
def splice (start tail : Nat) (s : Sequence α) (items : List α) : Sequence α :=
  ⟨s.items.take start ++ items ++ s.items.drop (s.items.length - tail)⟩

variable [BEq α]

def mutation? : Command α → Option (Sequence α → Except Error (Mutation (Sequence α) α))
  | .addAt i v => some fun s =>
      if i ≤ s.items.length then
        .ok ⟨.addIndexed i v, .addIndexed i v, .flag true, ⟨s.items.insertIdx i v⟩⟩
      else .error (.indexOutOfBounds i s.items.length)
  | .addAllAt i vs => some fun s =>
      if i ≤ s.items.length then
        .ok ⟨.addAllIndexed i vs, .addAllIndexed i vs (!vs.isEmpty), .flag (!vs.isEmpty),
          ⟨s.items.take i ++ vs ++ s.items.drop i⟩⟩
      else .error (.indexOutOfBounds i s.items.length)
  | .removeAt i => some fun s =>
      match s.items[i]? with
      | some p => .ok ⟨.removeIndexed i, .removeIndexed i p, .element p, ⟨s.items.eraseIdx i⟩⟩
      | none => .error (.indexOutOfBounds i s.items.length)
  | .set i v => some fun s =>
      match s.items[i]? with
      | some p => .ok ⟨.setIndexed i v, .setIndexed i v p, .element p, ⟨s.items.set i v⟩⟩
      | none => .error (.indexOutOfBounds i s.items.length)
  | c => (Collection.mutation? c).map fun f s => .ok (f s)

/-- A mutation of the elements in a window. -/
def within (start tail : Nat) (f : Sequence α → Except Error (Mutation (Sequence α) α))
    (s : Sequence α) : Except Error (Mutation (Sequence α) α) :=
  (f ⟨s.window start tail⟩).map (.map fun t => s.splice start tail t.items)

end Sequence

namespace ListIterator

def mutation? (cursor : Nat) (last : Option Nat) :
    Command α → Option (Sequence α → Except Error (Mutation (Sequence α) α))
  | .removeLast => some fun s =>
      match last.bind fun i => s.items[i]?.map (i, ·) with
      | some (i, v) =>
        .ok ⟨.removeIterated i v, .removeIterated i v, .flag true, ⟨s.items.eraseIdx i⟩⟩
      | none => .error .noCurrentElement
  | .setLast v => some fun s =>
      match last.bind fun i => s.items[i]?.map (i, ·) with
      | some (i, p) => .ok ⟨.setIterated i v, .setIterated i v p, .flag true, ⟨s.items.set i v⟩⟩
      | none => .error .noCurrentElement
  | .insert v => some fun s =>
      .ok ⟨.addIterated cursor v, .addIterated cursor v, .flag true, ⟨s.items.insertIdx cursor v⟩⟩
  | _ => none

def resumed (it : ListIterator C) : Command α → ListIterator C
  | .removeLast =>
    match it.last with
    | some i => { it with cursor := i, last := none }
    | none => it
  | .insert _ => { it with cursor := it.cursor + 1, last := none }
  | _ => it

end ListIterator

/-! ### At a range of a sorted set -/

namespace SortedSet

variable [BEq α] [Ord α] [Std.TransOrd α]

/-- Keeps what is out of bounds, and of the rest what satisfies the test. -/
def outsideOr (b : Bounds α) (keep : α → Bool) (x : α) : Bool := !b.contains x || keep x

def rangeMutation? (b : Bounds α) :
    Command α → Option (SortedSet α → Except Error (Mutation (SortedSet α) α))
  | .add v => (Collection.mutation? (.add v)).map fun f s =>
      if b.contains v then .ok (f s) else .error .keyOutOfRange
  | .addAll vs => (Collection.mutation? (.addAll vs)).map fun f s =>
      if vs.all b.contains then .ok (f s) else .error .keyOutOfRange
  | .remove v => (Collection.mutation? (.remove v)).map fun f s =>
      .ok (if b.contains v then f s else ⟨.remove v, .remove v none, .flag false, s⟩)
  | .removeAll vs => some fun s =>
      .ok (.retaining (.removeAll vs) (.removeAll vs) (outsideOr b fun x => !vs.any (· == x)) s)
  | .retainAll vs => some fun s =>
      .ok (.retaining (.retainAll vs) (.retainAll vs) (outsideOr b fun x => vs.any (· == x)) s)
  | .clear => some fun s => .ok (.retaining .clear .clear (outsideOr b fun _ => false) s)
  | _ => none

end SortedSet

/-! ### At a standard container -/

namespace Standard

def rootMutation? (command : Command α) :
    Standard α C κ → Option (C → Except Error (Mutation C α))
  | sequence => Sequence.mutation? command
  | queue =>
    ((Collection.mutation? command).or (Buffered.mutation? command)).map fun f c => .ok (f c)
  | uniqueSet | sortedSet => (Collection.mutation? command).map fun f c => .ok (f c)
  | bag =>
    ((Collection.mutation? command).or (Counted.mutation? command)).map fun f c => .ok (f c)

/-- Takes out the element `v` at position `i`.  Sets and bags know it by its value. -/
def erase (i : Nat) (v : α) : Standard α C κ → C → Option α × C
  | sequence => fun s => (s.items[i]?, ⟨s.items.eraseIdx i⟩)
  | queue => fun q => (q.items[i]?, ⟨q.items.eraseIdx i⟩)
  | uniqueSet | sortedSet | bag => fun c => Collection.remove c v

def iterationMutation? (k : Standard α C κ) (current : Option (Nat × α)) :
    Command α → Option (C → Except Error (Mutation C α))
  | .removeLast => some fun c =>
      match current with
      | some (i, v) =>
        let (removed, c') := k.erase i v c
        .ok ⟨.removeIterated i v, .removeIterated i (removed.getD v), .flag true, c'⟩
      | none => .error .noCurrentElement
  | _ => none

/-- The cursor once the element it produced last is gone. -/
def release : Standard α C κ → κ → κ
  | sequence | queue => fun cur => { next := cur.next - 1, current := none }
  | uniqueSet | bag => fun cur => { cur with current := none }
  | sortedSet => fun cur => { cur with removable := false }

def resumed (k : Standard α C κ) (it : Iteration D κ α) : Iteration D κ α :=
  match it.current with
  | some (i, _) =>
    { it with cursor := k.release it.cursor, size := it.size - 1, nextIndex := i, current := none }
  | none => it

/-- **The mutation a command stands for**, at what was opened last. -/
def mutation? (k : Standard α C κ) (frames : List (Frame κ α)) (command : Command α) :
    Option (C → Except Error (Mutation C α)) :=
  match k, frames with
  | k, [] => k.rootMutation? command
  | k, .iteration it _ :: _ => k.iterationMutation? it.current command
  | sequence, .subList v :: _ =>
    (Sequence.mutation? command).map (Sequence.within v.segment.start v.segment.tail)
  | sequence, .listIterator it _ :: _ =>
    (ListIterator.mutation? it.cursor it.last command).map
      (Sequence.within it.segment.start it.segment.tail)
  | sortedSet, .sortedView v :: _ => SortedSet.rangeMutation? v.range.bounds command
  | _, _ => none

def framesAfter (k : Standard α C κ) (command : Command α) : List (Frame κ α) → List (Frame κ α)
  | .iteration it h :: rest => .iteration (k.resumed it) h :: rest
  | .listIterator it h :: rest => .listIterator (it.resumed command) h :: rest
  | frames => frames

def afterward (k : Standard α C κ) (command : Command α) (s : Session C κ α) (c : C) :
    Session C κ α :=
  { root := { s.root with inner := c }, frames := k.framesAfter command s.frames }

end Standard

end WatchedContainers
