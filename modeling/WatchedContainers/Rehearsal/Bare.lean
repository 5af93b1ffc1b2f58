import WatchedContainers.Container.Family
import WatchedContainers.Rehearsal.Answer

/-!
# Steps on bare containers

The operations of a container, played without anybody watching.  What a container offers beyond
the base is given as a value (`Offer`), so that one player serves all containers.
-/

namespace WatchedContainers.Rehearsal

/-- What a container offers, and how it is shown. -/
structure Offer (C κ α : Type) where
  family : Family C κ α := .plain
  contents : C → Contents α
  text : Option (C → String) := none
  /-- Brings elements into order, if the container itself keeps none that can be relied upon. -/
  arrange : Option (List α → List α) := none

namespace Offer

variable {C κ α : Type}

def arranged (o : Offer C κ α) (vs : List α) : List α :=
  match o.arrange with
  | some f => f vs
  | none => vs

end Offer

section Play

variable {C κ α : Type} [BEq α] [Collection C α] [Traversal C κ α] [Noting C]

/-- Walks on to the end, for at most `fuel` elements, and removes the selected ones.  An element
that is selected but not given up is neither kept nor removed. -/
def walkCursor (selected : α → Bool) : Nat → κ → C → List α → List α →
    (List α × List α) × κ × C
  | 0, cur, c, kept, removed => ((kept, removed), cur, c)
  | fuel + 1, cur, c, kept, removed =>
    match Traversal.next cur c with
    | (none, cur) => ((kept, removed), cur, c)
    | (some v, cur) =>
      if selected v then
        match Traversal.remove cur c with
        | (some x, cur, c) => walkCursor selected fuel cur c kept (removed ++ [x])
        | (none, cur, c) => walkCursor selected fuel cur c kept removed
      else walkCursor selected fuel cur c (kept ++ [v]) removed

def playCursorStep (o : Offer C κ α) (cur : κ) (c : C) : CursorStep α → Reply α × κ × C
  | .next => let (v, cur) := Traversal.next cur c; (.element v, cur, c)
  | .remove => let (v, cur, c) := Traversal.remove cur c; (.element v, cur, c)
  | .walk values =>
    let ((kept, removed), cur, c) :=
      walkCursor (fun v => values.all fun vs => vs.any (· == v)) (Collection.size c + 1) cur c [] []
    (.walked (o.arranged kept) (o.arranged removed), cur, c)
  | .unknown => (.badInput, cur, c)

def bareAnswer (reply : Reply α) (shown : Shown α) (c : C) : Answer (Reply α) α × C :=
  ({ reply, news := .log ((Noting.calls c).map .called), shown }, Noting.settle c)

def playCursor (o : Offer C κ α) : List (CursorStep α) → κ → C → List (Answer (Reply α) α) × C
  | [], _, c => ([], c)
  | step :: rest, cur, c =>
    let (reply, cur, c) := playCursorStep o cur c step
    let (a, c) := bareAnswer reply .nothing c
    let (as, c) := playCursor o rest cur c
    (a :: as, c)

def playPositional (inst : Positional C α) (c : C) : BareStep α → Reply α × C
  | .get i => (.element (inst.get? c i), c)
  | .insertAt i v => (.nothing, inst.insertAt c i v)
  | .insertAllAt i vs => let (b, c) := inst.insertAllAt c i vs; (.flag b, c)
  | .removeAt i => let (v, c) := inst.removeAt c i; (.element v, c)
  | .setAt i v => let (p, c) := inst.setAt c i v; (.element p, c)
  | .removeRange start stop => (.nothing, inst.removeRange c start stop)
  | _ => (.badInput, c)

def playCounted (inst : Counted C α) (c : C) : BareStep α → Reply α × C
  | .count v => (.number (inst.count c v), c)
  | .addCopies v n => let (b, c) := inst.addCopies c v n; (.flag b, c)
  | .removeCopies v n => let (b, c) := inst.removeCopies c v n; (.flag b, c)
  | _ => (.badInput, c)

def playBuffered (inst : Buffered C α) (c : C) : BareStep α → Reply α × C
  | .peekNext => (.element (inst.peekNext c), c)
  | .removeNext => let (v, c) := inst.removeNext c; (.element v, c)
  | _ => (.badInput, c)

def playSorted (o : Offer C κ α) (inst : Sorted C κ α) (c : C) : BareStep α → Reply α × C
  | .first => (.element (inst.first c), c)
  | .last => (.element (inst.last c), c)
  | .within b => (.elements (inst.within c b), c)
  | .sizeWithin b => (.number (inst.sizeWithin c b), c)
  | .cursorWithin b script =>
    let (as, c) := playCursor o script (inst.cursorWithin c b) c
    (.answers as, c)
  | _ => (.badInput, c)

/-- Plays a step that only containers of one family offer. -/
def playOffered (o : Offer C κ α) (c : C) (step : BareStep α) : Reply α × C :=
  match o.family with
  | .plain => (.badInput, c)
  | .list inst => playPositional inst c step
  | .bag inst => playCounted inst c step
  | .buffer inst => playBuffered inst c step
  | .sorted inst _ => playSorted o inst c step

def playBareStep (o : Offer C κ α) (c : C) : BareStep α → Reply α × C
  | .capabilities => (.number (Collection.capabilities C).bits.toNat, c)
  | .size => (.number (Collection.size c), c)
  | .isEmpty => (.flag (Collection.isEmpty c), c)
  | .contains v => (.flag (Collection.contains c v), c)
  | .add v => let (b, c) := Collection.add c v; (.flag b, c)
  | .addAll vs => let (b, c) := Collection.addAll c vs; (.flag b, c)
  | .remove v => let (x, c) := Collection.remove c v; (.element x, c)
  | .retain vs => let (b, c) := Collection.retain c fun x => vs.any (· == x); (.flag b, c)
  | .clear => (.nothing, Collection.clear c)
  | .cursor script =>
    let (as, c) := playCursor o script (Traversal.cursor c) c
    (.answers as, c)
  | step => playOffered o c step

def playBare (o : Offer C κ α) : List (BareStep α) → C → List (Answer (Reply α) α)
  | [], _ => []
  | step :: rest, c =>
    let (reply, c) := playBareStep o c step
    let (a, c) := bareAnswer reply (.state (o.contents c)) c
    a :: playBare o rest c

end Play

end WatchedContainers.Rehearsal
