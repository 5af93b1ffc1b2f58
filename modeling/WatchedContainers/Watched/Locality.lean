import WatchedContainers.Watched.Run

/-!
# Events of a list and of a sub-list

What is done to a sub-list can be done to a list of its elements, too.  The events differ in what
they name and where they count from (`Event.throughView`).
-/

namespace WatchedContainers

variable {α : Type}

/-- An event of a list, as the root raises it if the list is seen in a view: it names the root and
the view, counts positions from the view's start, and counts the elements around the view as well,
which are `flank` in number. -/
def Event.throughView (observed : ContainerId) (handler : HandlerRef) (view : Viewpoint)
    (flank : Nat) (e : Event α) : Event α where
  observed := observed
  handler := handler
  modification := e.modification.shift view.offset
  view := some view
  preSize := e.preSize + flank
  aftermath := e.aftermath.map fun a => { a with postSize := a.postSize + flank }

namespace Heard

def throughView (observed : ContainerId) (handler : HandlerRef) (view : Viewpoint) (flank : Nat) :
    Heard α → Heard α
  | asked e answer => asked (e.throughView observed handler view flank) answer
  | told e => told (e.throughView observed handler view flank)

end Heard

/-- Scripts that lists and sub-lists serve alike: commands and queries, and list iterators that are
opened, used and closed again.  The flag tells whether a list iterator is open. -/
def isLocalScript : Bool → List (Action α) → Bool
  | _, [] => true
  | iterating, .command _ :: rest | iterating, .query _ :: rest | iterating, .move _ :: rest =>
    isLocalScript iterating rest
  | false, .openFrame .listIterator :: rest => isLocalScript true rest
  | true, .close :: rest => isLocalScript false rest
  | _, _ => false

end WatchedContainers
